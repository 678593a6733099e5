import Fluke.User.Vm.Coherence
import Fluke.User.Vm.Syscall

/-!
# Cached translations

The processor may keep the translation of every page that user code has accessed, until CR3 is
written. `virtual_unmap` writes CR3; `virtual_map` does not, although a fixed mapping may replace
pages. The cached translations agree with the page tables as long as no fixed mapping meets a
page whose translation is cached.

The list of areas may be out of order in these runs, so that only the bounds of the areas are
relied on.
-/

namespace Fluke

open Outcome TableEntry

/-! ### Bounds of the areas -/

/-- Every area begins in the user half and ends within twice its size. -/
def Bounded (areas : List VmArea) : Prop :=
  ∀ a ∈ areas, a.begin ≤ addrMax ∧ a.end_ ≤ 2 * addrMax

section

variable {areas areas' : List VmArea} {area : VmArea}

lemma bounded_nil : Bounded [] := fun _ ha => (by cases ha)

lemma bounded_cons : Bounded (area :: areas) ↔
    (area.begin ≤ addrMax ∧ area.end_ ≤ 2 * addrMax) ∧ Bounded areas :=
  List.forall_mem_cons

lemma bounded_append : Bounded (areas ++ areas') ↔ Bounded areas ∧ Bounded areas' :=
  List.forall_mem_append

lemma clearLoop_bounded {address end_ : ℕ} (haddress : address ≤ addrMax) (hend : end_ ≤ addrMax)
    (spare : Block) (h : Bounded areas) (heap : Heap) :
    Ensures (fun _ => True) (fun r => Bounded (r.1.passed ++ r.1.rest))
      (clearLoop address end_ spare areas heap) := by
  induction areas generalizing heap with
  | nil => exact h
  | cons area next ih =>
    obtain ⟨harea, hnext⟩ := bounded_cons.mp h
    have haddress' : address ≤ 2 * addrMax := haddress.trans (Nat.le_mul_of_pos_left _ two_pos)
    unfold clearLoop
    cases area.findOverlap address end_ with
    | after => exact h
    | startsWith =>
      exact (ensures_trivial _).bind fun _ _ => bounded_cons.mpr ⟨⟨hend, harea.2⟩, hnext⟩
    | contains =>
      exact bounded_cons.mpr ⟨⟨harea.1, haddress'⟩, bounded_cons.mpr ⟨⟨hend, harea.2⟩, hnext⟩⟩
    | whole =>
      refine Ensures.bind ((freeArea_spec area.block heap).mono (fun _ h => h.elim)
        fun _ h => h) fun heap₁ _ => ih hnext heap₁
    | endsWith =>
      refine (ensures_trivial _).bind fun _ _ => (ih hnext heap).bind fun r hr => ?_
      exact bounded_cons.mpr ⟨⟨harea.1, haddress'⟩, hr⟩
    | before => exact (ih hnext heap).bind fun r hr => bounded_cons.mpr ⟨harea, hr⟩

lemma vmClearForInsert_bounded {address end_ : ℕ} (haddress : address ≤ addrMax)
    (hend : end_ ≤ addrMax) (h : Bounded areas) (heap : Heap) :
    Ensures (fun _ => True) (fun r => ∀ route, r.1 = .ok route →
      Bounded (route.passed ++ route.rest)) (vmClearForInsert areas address end_ heap) := by
  unfold vmClearForInsert
  refine (ensures_trivial (makeArea heap)).bind ?_
  rintro ⟨_ | spare, heap₁⟩ -
  · exact fun route h => (by cases h)
  refine (clearLoop_bounded haddress hend spare h heap₁).bind ?_
  rintro ⟨route, heap₂⟩ hbounded
  have hdone : ∀ route', (Except.ok route : Result Route) = .ok route' →
      Bounded (route'.passed ++ route'.rest) := by
    rintro route' h
    cases h
    exact hbounded
  dsimp only
  split_ifs
  · exact hdone
  · exact (ensures_trivial (freeArea spare heap₂)).bind fun _ _ => hdone

lemma vmInsertArea_bounded {address end_ : ℕ} (haddress : address ≤ addrMax)
    (hend : end_ ≤ addrMax) (h : Bounded areas) (flags : MmuMode) (heap : Heap) :
    Ensures (fun _ => True) (fun out => Bounded out.2.1)
      (vmInsertArea areas address end_ flags heap) := by
  have hend' : end_ ≤ 2 * addrMax := hend.trans (Nat.le_mul_of_pos_left _ two_pos)
  obtain ⟨happend, -, -⟩ := insertLoop_spec address areas
  unfold vmInsertArea
  refine (ensures_trivial (makeArea heap)).bind ?_
  rintro ⟨_ | newArea, heap₁⟩ -
  · exact h
  generalize insertLoop address areas = route at happend
  obtain ⟨passed, _ | ⟨next, rest⟩⟩ := route
  · rw [happend, bounded_append] at h
    exact bounded_append.mpr ⟨h.1, bounded_cons.mpr ⟨⟨haddress, hend'⟩, bounded_nil⟩⟩
  · dsimp only
    split_ifs
    · exact (ensures_trivial (freeArea newArea heap₁)).bind fun _ _ => h
    · rw [happend, bounded_append] at h
      exact bounded_append.mpr ⟨h.1, bounded_cons.mpr ⟨⟨haddress, hend'⟩, h.2⟩⟩

lemma mergeRegionsAfter_bounded (harea : area.begin ≤ addrMax ∧ area.end_ ≤ 2 * addrMax)
    (h : Bounded areas) (heap : Heap) :
    Ensures (fun _ => False) (fun r => Bounded (r.1 :: r.2.1) ∧ r.2.2.pmm = heap.pmm)
      (mergeRegionsAfter area areas heap) := by
  induction areas generalizing area heap with
  | nil => exact ⟨bounded_cons.mpr ⟨harea, bounded_nil⟩, rfl⟩
  | cons next rest ih =>
    obtain ⟨hnext, hrest⟩ := bounded_cons.mp h
    unfold mergeRegionsAfter
    split_ifs
    · refine (freeArea_spec next.block heap).bind fun heap₁ hpmm => ?_
      refine (@ih { area with end_ := next.end_ } ⟨harea.1, hnext.2⟩ hrest heap₁).imp fun r hr => ?_
      exact ⟨hr.1, hr.2.trans hpmm⟩
    · exact ⟨bounded_cons.mpr ⟨harea, h⟩, rfl⟩

/-- What the loop of `alloc_movable` finds is an area of the list with enough space after it. -/
lemma findRegion_mem {hint : ℕ} {length : ℤ} {list : List VmArea} {i : ℕ} {region : Region}
    {r : VmArea} {j : ℕ} (h : findRegion hint length list i region = some (r, j)) :
    region = some (r, j) ∨ ∃ before after, list = before ++ r :: after ∧ j = i + before.length ∧
      r.spaceAfter after.head? ≥ length := by
  induction list generalizing i region with
  | nil => exact Or.inl h
  | cons area next ih =>
    have hcons : ∀ before after, next = before ++ r :: after → j = i + 1 + before.length →
        r.spaceAfter after.head? ≥ length → ∃ before after, area :: next = before ++ r :: after ∧
          j = i + before.length ∧ r.spaceAfter after.head? ≥ length := by
      rintro before after hnext hj hspace
      refine ⟨area :: before, after, congrArg (area :: ·) hnext, ?_, hspace⟩
      rw [List.length_cons, hj]
      omega
    unfold findRegion at h
    split_ifs at h with hroom hlt
    · rcases ih h with heq | ⟨before, after, hnext, hj, hspace⟩
      · cases heq
        exact Or.inr ⟨[], next, rfl, rfl, hroom⟩
      · exact Or.inr (hcons before after hnext hj hspace)
    · cases region with
      | none =>
        cases h
        exact Or.inr ⟨[], next, rfl, rfl, hroom⟩
      | some b =>
        obtain ⟨best, k⟩ := b
        dsimp only at h
        split_ifs at h
        · cases h
          exact Or.inr ⟨[], next, rfl, rfl, hroom⟩
        · exact Or.inl h
    · rcases ih h with heq | ⟨before, after, hnext, hj, hspace⟩
      · exact Or.inl heq
      · exact Or.inr (hcons before after hnext hj hspace)

/-- Space after an area means that it ends before the next one begins. -/
lemma end_lt_of_spaceAfter {next : List VmArea} {length : ℤ} (harea : area.end_ ≤ 2 * addrMax)
    (hnext : nextBegin next ≤ addrMax) (hlength : 0 < length)
    (h : area.spaceAfter next.head? ≥ length) : area.end_ < nextBegin next := by
  have heq : area.spaceAfter next.head? = toIsize (usub (nextBegin next) area.end_) := by
    cases next <;> rfl
  rw [heq] at h
  unfold toIsize usub at h
  simp only [addrMax, memLowHalfMax] at harea hnext
  split_ifs at h with hsmall
  · omega
  · omega

lemma Bounded.nextBegin_le (h : Bounded areas) : nextBegin areas ≤ addrMax := by
  cases areas with
  | nil => exact le_rfl
  | cons next rest => exact (bounded_cons.mp h).1.1

end

/-! ### What the operations do to pages that are mapped -/

/-- Mapped pages stay mapped. -/
def Grows : PageRel := fun _ old new => ∀ entry, old = some entry → new = some entry

/-- Only the range changes. -/
def SameOutside (address end_ : ℕ) : PageRel := fun va old new =>
  ¬ (address ≤ va ∧ va < end_) → new = old

section

variable {vm : Vm} {pm : Frame} {heap heap₁ : Heap} {address len : ℕ} {flags : BitVec 32}

lemma PagesStep.grows {s s' : Pmm} (h : PagesStep pm Kept s s') : PagesStep pm Grows s s' := by
  refine ⟨h.ok, h.noEmpty, fun va hva entry hentry => ?_⟩
  rw [h.lookup va hva]
  exact hentry

lemma PagesStep.grows_of_mapsIn {s s' : Pmm} {end_ : ℕ}
    (h : PagesStep pm (MapsIn address end_ flags) s s') : PagesStep pm Grows s s' := by
  refine ⟨h.ok, h.noEmpty, fun va hva entry hentry => ?_⟩
  have hpage := h.lookup va hva
  unfold MapsIn at hpage
  split_ifs at hpage with hin
  · rw [hpage.1] at hentry
    cases hentry
  · rw [hpage]
    exact hentry

lemma assignArea_grows (hs : SpaceOk pm heap.pmm) (haddress : address ≤ addrMax)
    (hlen : len < 2 ^ 63) :
    Ensures (fun _ => True) (fun heap' => PagesStep pm Grows heap.pmm heap'.pmm)
      (assignArea pm address len flags heap) := by
  refine ensures_iff.mpr ⟨fun heap' h => ?_, fun _ _ => trivial⟩
  have h' := h
  unfold assignArea at h
  split_ifs at h with hflags
  · obtain ⟨s', hassign, -⟩ := bind_eq_ok.mp h
    obtain ⟨_, hvalid, -⟩ := bind_eq_ok.mp hassign
    have hlimits : UserLimits address len := ⟨haddress, by exact_mod_cast hlen⟩
    obtain ⟨n, hn, hr⟩ := userRange_of_validateLimits hlimits hvalid
    obtain rfl : len = n := by exact_mod_cast hn
    exact ((assignArea_spec hr hs).of_eq_ok h').grows_of_mapsIn
  · cases h
    exact (PagesStep.kept hs).grows

lemma Vm.insertMovable_grows {hint : ℕ} {before rest : List VmArea} {region : VmArea}
    (hs : SpaceOk vm.pageMap heap.pmm) (hlen : len ≤ addrMax)
    (hregion : region.begin ≤ addrMax ∧ region.end_ ≤ 2 * addrMax)
    (hbefore : Bounded before) (hrest : Bounded rest) (hgap : region.end_ < nextBegin rest)
    (newArea : Block) :
    Ensures (fun _ => True) (fun out => PagesStep vm.pageMap Grows heap.pmm out.2.2.pmm ∧
      Bounded out.2.1) (vm.insertMovable hint len flags newArea before region rest heap) := by
  have hnext := hrest.nextBegin_le
  have haddress := (clamp_bounds hgap.le hint).2.trans hnext
  unfold Vm.insertMovable
  extract_lets address area
  have hend : uaddIsize address len ≤ 2 * addrMax := by
    have haddress' : address ≤ addrMax := haddress
    simp only [addrMax, memLowHalfMax] at haddress' hlen ⊢
    rw [uaddIsize_of_nonneg (by omega) (by omega)]
    omega
  have harea : area.begin ≤ addrMax ∧ area.end_ ≤ 2 * addrMax := ⟨haddress, hend⟩
  have hlen' : len < 2 ^ 63 := by
    simp only [addrMax, memLowHalfMax] at hlen
    omega
  refine (ensures_trivial _).bind fun _ _ => ?_
  refine (assignArea_grows hs haddress hlen').bind fun heap₁ hpages => ?_
  refine Ensures.bind ((mergeRegionsAfter_bounded hregion (bounded_cons.mpr ⟨harea, hrest⟩)
    heap₁).mono (fun _ h => h.elim) fun _ h => h) ?_
  rintro ⟨region', rest', heap₂⟩ ⟨hbounded, hpmm⟩
  refine ⟨?_, fun a ha => ?_⟩
  · dsimp only at hpmm ⊢
    rw [hpmm]
    exact hpages
  · exact bounded_append.mpr ⟨hbefore, hbounded⟩ a (List.mem_of_mem_drop ha)

lemma Vm.placeMovable_grows {hint : ℕ} {list : List VmArea} (hs : SpaceOk vm.pageMap heap.pmm)
    (hfirst : Bounded vm.first) (hlist : Bounded list) (hpos : 0 < len) (hlen : len ≤ addrMax)
    (newArea : Block) :
    Ensures (fun _ => True) (fun out => PagesStep vm.pageMap Grows heap.pmm out.2.2.pmm ∧
      Bounded out.2.1) (vm.placeMovable hint len flags newArea list heap) := by
  unfold Vm.placeMovable
  cases hfind : findRegion hint len list 0 none with
  | none =>
    refine Ensures.bind ((freeArea_spec newArea heap).mono (fun _ h => h.elim) fun _ h => h)
      fun heap₁ hpmm => ⟨?_, hfirst⟩
    dsimp only
    rw [hpmm]
    exact (PagesStep.kept hs).grows
  | some found =>
    obtain ⟨r, j⟩ := found
    rcases findRegion_mem hfind with h | ⟨before, after, rfl, rfl, hspace⟩
    · cases h
    obtain ⟨hbefore, hr, hafter⟩ := (bounded_append.mp hlist).imp_right bounded_cons.mp
    have hgap := end_lt_of_spaceAfter hr.2 hafter.nextBegin_le (by exact_mod_cast hpos) hspace
    dsimp only
    rw [zero_add, List.take_left,
      show (before ++ r :: after).drop (before.length + 1) = after by simp]
    exact Vm.insertMovable_grows hs hlen hr hbefore hafter hgap newArea

lemma Vm.allocMovable_grows {hint : ℕ} (hs : SpaceOk vm.pageMap heap.pmm)
    (hfirst : Bounded vm.first) (hpos : 0 < len) (hlen : len ≤ addrMax) :
    Ensures (fun _ => True) (fun out => PagesStep vm.pageMap Grows heap.pmm out.2.2.pmm ∧
      Bounded out.2.1) (vm.allocMovable hint len flags heap) := by
  have hbegin : Bounded (vmListBegin :: vm.first) := bounded_cons.mpr ⟨by decide, hfirst⟩
  unfold Vm.allocMovable
  generalize vmListBegin :: vm.first = list at hbegin
  extract_lets hint'
  split_ifs
  · exact ⟨(PagesStep.kept hs).grows, hfirst⟩
  refine Ensures.bind ((makeArea_spec hs.counted).mono (fun _ h => h.elim) fun _ h => h)
    fun r h => ?_
  obtain ⟨block, heap₁⟩ := r
  have hstep : HeapStep heap heap₁ := h
  have hkept := hstep.pagesKept hs
  cases block with
  | none => exact ⟨hkept.grows, hfirst⟩
  | some newArea =>
    refine (Vm.placeMovable_grows hkept.ok hfirst hbegin hpos hlen newArea).imp fun out hout => ?_
    exact ⟨hkept.kept_trans hout.1, hout.2⟩

lemma Vm.allocFixedNoreplace_grows (hs : SpaceOk vm.pageMap heap.pmm) (hfirst : Bounded vm.first)
    (hargs : VmArgs address len) (hle : address + len ≤ addrMax) :
    Ensures (fun _ => True) (fun out => PagesStep vm.pageMap Grows heap.pmm out.2.2.pmm ∧
      Bounded out.2.1) (vm.allocFixedNoreplace address len flags heap) := by
  have hlt : address < addrMax := by
    have hpos := hargs.pos
    omega
  refine Ensures.and ((Vm.allocFixedNoreplace_spec hargs hs).mono (fun _ _ => trivial)
    fun out hout => ?_) ?_
  · cases hres : out.1 with
    | ok u => exact (hout.1 hres).1.pages.grows_of_mapsIn
    | error e => exact (hout.2 e hres).2.grows
  · unfold Vm.allocFixedNoreplace
    refine (ensures_trivial _).bind fun _ _ => ?_
    split_ifs
    · exact hfirst
    rw [hargs.uaddIsize_eq hlt]
    refine (vmInsertArea_bounded hlt.le hle hfirst (protToMode flags) heap).bind ?_
    rintro ⟨_ | _, areas, heap₁⟩ hbounded
    · exact hbounded
    · exact (ensures_trivial _).bind fun _ _ => hbounded

lemma Vm.allocFixedOverwrite_outside (hs : SpaceOk vm.pageMap heap.pmm)
    (hfirst : Bounded vm.first) (hargs : VmArgs address len) (hle : address + len ≤ addrMax) :
    Ensures (fun _ => True) (fun out =>
      PagesStep vm.pageMap (SameOutside address (address + len)) heap.pmm out.2.2.pmm ∧
      Bounded out.2.1) (vm.allocFixedOverwrite address len flags heap) := by
  have hlt : address < addrMax := by
    have hpos := hargs.pos
    omega
  refine Ensures.and ((Vm.allocFixedOverwrite_spec hargs hs).mono (fun _ _ => trivial)
    fun out hout => ?_) ?_
  · cases hres : out.1 with
    | ok u =>
      have hpages := hout.done hres
      refine ⟨hpages.ok, hpages.noEmpty, fun va hva hin => ?_⟩
      have hpage := hpages.lookup va hva
      unfold ReplacedIn at hpage
      rwa [if_neg hin] at hpage
    | error e =>
      rcases hout.failed e hres with ⟨hkept, -⟩ | hpages
      · exact ⟨hkept.ok, hkept.noEmpty, fun va hva _ => hkept.lookup va hva⟩
      · refine ⟨hpages.ok, hpages.noEmpty, fun va hva hin => ?_⟩
        have hpage := hpages.lookup va hva
        unfold ClearedIn at hpage
        rwa [if_neg hin] at hpage
  · unfold Vm.allocFixedOverwrite
    refine (ensures_trivial _).bind fun _ _ => ?_
    split_ifs
    · exact hfirst
    rw [hargs.uaddIsize_eq hlt]
    refine (vmClearForInsert_bounded hlt.le hle hfirst heap).bind ?_
    rintro ⟨_ | route, heap₁⟩ hroute
    · exact hfirst
    have hbounded := hroute route rfl
    have hend : address + len ≤ 2 * addrMax := hle.trans (Nat.le_mul_of_pos_left _ two_pos)
    refine (ensures_trivial _).bind fun heap₂ _ => ?_
    refine (ensures_trivial (makeArea heap₂)).bind ?_
    rintro ⟨_ | block, heap₃⟩ -
    · exact hbounded
    · refine (ensures_trivial _).bind fun _ _ => ?_
      obtain ⟨hpassed, hrest⟩ := bounded_append.mp hbounded
      exact bounded_append.mpr ⟨hpassed, bounded_cons.mpr ⟨⟨hlt.le, hend⟩, hrest⟩⟩

lemma Vm.free_bounded (hfirst : Bounded vm.first) (hargs : VmArgs address len)
    (hle : address + len ≤ addrMax) :
    Ensures (fun _ => True) (fun out => Bounded out.2.1) (vm.free address len heap) := by
  have hlt : address < addrMax := by
    have hpos := hargs.pos
    omega
  unfold Vm.free
  refine (ensures_trivial _).bind fun _ _ => ?_
  split_ifs
  · exact hfirst
  rw [hargs.uaddIsize_eq hlt]
  refine (vmClearForInsert_bounded hlt.le hle hfirst heap).bind ?_
  rintro ⟨_ | route, heap₁⟩ hroute
  · exact hfirst
  · exact (ensures_trivial _).bind fun _ _ => hroute route rfl

end

/-! ### The system calls -/

/-- The registers make `virtual_map` replace what is mapped in the range. -/
structure FixedMap (a0 a1 a2 a3 : Word) : Prop where
  range : checkUserRange a0.toNat (roundedLength a1) = .ok ()
  prot : a2 &&& ~~~((protExec ||| protRead ||| protWrite).setWidth 64) = 0
  flags : a3 &&& ~~~(mapFixed ||| mapFixedNoreplace) = 0
  fixed : a3 &&& mapFixed ≠ 0
  aligned : isPageAligned a0.toNat = true
  lower : addrMin ≤ a0.toNat

lemma roundedLength_lt (register : Word) : roundedLength register < 2 ^ 63 := by
  have hlt : roundUpP2 register.toNat pageSize < 2 ^ 64 := by
    unfold roundUpP2 roundDownP2 usub
    omega
  unfold roundedLength toIsize
  split_ifs <;> omega

/-- An accepted range has a positive length of whole pages. -/
lemma roundedLength_of_check {address : ℕ} {register : Word}
    (h : checkUserRange address (roundedLength register) = .ok ()) :
    ∃ len : ℕ, roundedLength register = len ∧ 4096 ∣ len ∧ 0 < len ∧ len < 2 ^ 63 ∧
      address + len ≤ addrMax := by
  obtain ⟨hpos, hle⟩ := (checkUserRange_eq_ok (roundedLength_lt register)).mp h
  have hround : 4096 ∣ roundUpP2 register.toNat pageSize := by
    rw [roundUpP2, roundDownP2_eq]
    exact Dvd.intro _ rfl
  have hlen : roundedLength register = (roundUpP2 register.toNat pageSize : ℕ) := by
    unfold roundedLength toIsize at hpos ⊢
    have hlt : roundUpP2 register.toNat pageSize < 2 ^ 64 := by
      unfold roundUpP2 roundDownP2 usub
      omega
    split_ifs at hpos ⊢ with hsmall
    · rfl
    · omega
  have hlt := roundedLength_lt register
  rw [hlen] at hpos hle hlt
  simp only [memLowHalfMax] at hle
  refine ⟨_, hlen, hround, by omega, by omega, ?_⟩
  simp only [addrMax, memLowHalfMax]
  omega

/-- The first page is never mapped. -/
lemma Vm.allocFixedOverwrite_low {vm : Vm} {address len : ℕ} {flags : BitVec 32} {heap : Heap}
    (hargs : VmArgs address len) (h : address < addrMin) :
    vm.allocFixedOverwrite address len flags heap = .ok (.error .EINVAL, vm.first, heap) := by
  unfold Vm.allocFixedOverwrite
  rw [hargs.assertValid_eq, ok_bind, if_pos (by simp [h])]

/-- What `virtual_map` does to the pages that are mapped. -/
lemma virtualMap_spec {vm : Vm} {heap : Heap} (hs : SpaceOk vm.pageMap heap.pmm)
    (hfirst : Bounded vm.first) (a0 a1 a2 a3 : Word) :
    Ensures (fun _ => True) (fun out => (PagesStep vm.pageMap Grows heap.pmm out.2.2.pmm ∨
      FixedMap a0 a1 a2 a3 ∧ PagesStep vm.pageMap (SameOutside a0.toNat
        (a0.toNat + (roundedLength a1).toNat)) heap.pmm out.2.2.pmm) ∧ Bounded out.2.1)
      (virtualMap vm a0 a1 a2 a3 heap) := by
  have hkept := (PagesStep.kept hs).grows
  unfold virtualMap
  dsimp only
  cases hcheck : checkUserRange a0.toNat (roundedLength a1) with
  | error e => exact ⟨Or.inl hkept, hfirst⟩
  | ok u =>
    obtain ⟨len, hlen, hdvd, hpos, hlt, hle⟩ := roundedLength_of_check hcheck
    rw [hlen, Int.toNat_natCast]
    split_ifs with hprot hflags hfixed haligned hoverwrite
    · exact ⟨Or.inl hkept, hfirst⟩
    · exact ⟨Or.inl hkept, hfirst⟩
    · exact ⟨Or.inl hkept, hfirst⟩
    · have haligned' : isPageAligned a0.toNat = true := by simpa using haligned
      have hdvd' : 4096 ∣ a0.toNat := Nat.dvd_of_mod_eq_zero (isPageAligned_iff.mp haligned')
      have hargs : VmArgs a0.toNat len := ⟨hdvd', hdvd, hpos, hlt⟩
      by_cases hlower : addrMin ≤ a0.toNat
      · refine (Vm.allocFixedOverwrite_outside hs hfirst hargs hle).bind ?_
        rintro ⟨result, areas, heap₁⟩ ⟨hpages, hbounded⟩
        refine ⟨Or.inr ⟨⟨hcheck, ?_, ?_, hoverwrite, haligned', hlower⟩, hpages⟩, hbounded⟩
        · simpa using hprot
        · simpa using hflags
      · rw [Vm.allocFixedOverwrite_low hargs (not_le.mp hlower), ok_bind]
        exact ⟨Or.inl hkept, hfirst⟩
    · have hdvd' : 4096 ∣ a0.toNat := by
        refine Nat.dvd_of_mod_eq_zero (isPageAligned_iff.mp ?_)
        simpa using haligned
      refine (Vm.allocFixedNoreplace_grows hs hfirst ⟨hdvd', hdvd, hpos, hlt⟩ hle).bind ?_
      rintro ⟨result, areas, heap₁⟩ ⟨hpages, hbounded⟩
      exact ⟨Or.inl hpages, hbounded⟩
    · refine (Vm.allocMovable_grows hs hfirst hpos (by omega)).imp fun out hout => ?_
      exact ⟨Or.inl hout.1, hout.2⟩

/-- What `virtual_unmap` does; unless it fails it also empties the cache. -/
lemma virtualUnmap_spec {vm : Vm} {heap : Heap} (hs : SpaceOk vm.pageMap heap.pmm)
    (hfirst : Bounded vm.first) (a0 a1 : Word) :
    Ensures (fun _ => True) (fun out => SpaceOk vm.pageMap out.2.2.pmm ∧ Bounded out.2.1 ∧
      ∀ e, out.1 = .error e → PagesStep vm.pageMap Kept heap.pmm out.2.2.pmm)
      (virtualUnmap vm a0 a1 heap) := by
  unfold virtualUnmap
  dsimp only
  split_ifs with haligned
  · exact ⟨hs, hfirst, fun _ _ => .kept hs⟩
  cases hcheck : checkUserRange a0.toNat (roundedLength a1) with
  | error e => exact ⟨hs, hfirst, fun _ _ => .kept hs⟩
  | ok u =>
    obtain ⟨len, hlen, hdvd, hpos, hlt, hle⟩ := roundedLength_of_check hcheck
    have hdvd' : 4096 ∣ a0.toNat := by
      refine Nat.dvd_of_mod_eq_zero (isPageAligned_iff.mp ?_)
      simpa using haligned
    have hargs : VmArgs a0.toNat len := ⟨hdvd', hdvd, hpos, hlt⟩
    rw [hlen]
    refine (((Vm.free_spec hargs hs).mono (fun _ _ => trivial) fun _ h => h).and
      (Vm.free_bounded hfirst hargs hle)).imp fun out hout => ?_
    obtain ⟨hfreed, hbounded⟩ := hout
    refine ⟨?_, hbounded, fun e he => (hfreed.failed e he).2⟩
    cases hres : out.1 with
    | ok u => exact (hfreed.done hres).ok
    | error e => exact (hfreed.failed e hres).2.ok

/-! ### Runs -/

/-- A translation in the cache of the processor: the number of a page and the entry that the walk
through the tables ended at. -/
structure Cached where
  page : ℕ
  translation : ℕ × Word

/-- A process with the cached translations of its address space. -/
structure UserState where
  vm : Vm
  heap : Heap
  tlb : List Cached

/-- What happens while a process runs. -/
inductive UserEvent where
  /-- User code accesses an address and the processor keeps the translation. -/
  | access (va : ℕ)
  | virtualMap (a0 a1 a2 a3 : Word)
  | virtualUnmap (a0 a1 : Word)

/-- `mmu_reload_address_space` empties the cache. -/
def UserState.reload (s : UserState) : UserState := { s with tlb := [] }

/-- What a system call leaves behind. -/
def UserState.after {α : Type} (s : UserState) (out : VmOut α) : UserState :=
  { s with vm := { s.vm with first := out.2.1 }, heap := out.2.2 }

/-- One event. -/
def UserState.step : UserEvent → UserState → Except Panic UserState
  | .access va, s =>
    if isUserPointer va then
      match leafEntry s.heap.pmm.memory s.vm.pageMap va with
      | some translation => .ok { s with tlb := ⟨va / pageSize, translation⟩ :: s.tlb }
      | none => .ok s
    else .ok s
  | .virtualMap a0 a1 a2 a3, s => do
    let out ← virtualMap s.vm a0 a1 a2 a3 s.heap
    .ok (s.after out)
  | .virtualUnmap a0 a1, s => do
    let out ← virtualUnmap s.vm a0 a1 s.heap
    match out.1 with
    | .ok () => .ok (s.after out).reload
    | .error _ => .ok (s.after out)

/-- No page that a fixed mapping replaces has its translation in the cache. -/
def UserEvent.Safe (s : UserState) : UserEvent → Prop
  | .access _ => True
  | .virtualMap a0 a1 a2 a3 => FixedMap a0 a1 a2 a3 → ∀ c ∈ s.tlb,
      ¬ (a0.toNat ≤ c.page * 4096 ∧ c.page * 4096 < a0.toNat + (roundedLength a1).toNat)
  | .virtualUnmap _ _ => True

/-- Well-formed page tables, areas within bounds and nothing in the cache. -/
structure UserState.Initial (s : UserState) : Prop where
  space : SpaceOk s.vm.pageMap s.heap.pmm
  areas : Bounded s.vm.first
  tlb : s.tlb = []

/-- The cached translation of a page is the one in the page tables. -/
def Cached.Agrees (memory : Frame → Page) (pm : Frame) (c : Cached) : Prop :=
  c.page * 4096 < memLowHalfMax ∧
    ∃ entry, c.translation = (0, entry) ∧ userLookup memory pm (c.page * 4096) = some entry

/-- What holds after every event. -/
structure UserState.Ok (s : UserState) : Prop where
  space : SpaceOk s.vm.pageMap s.heap.pmm
  areas : Bounded s.vm.first
  tlb : ∀ c ∈ s.tlb, c.Agrees s.heap.pmm.memory s.vm.pageMap

lemma tableIndex_page (d va : ℕ) :
    tableIndex (d + 1) (va / 4096 * 4096) = tableIndex (d + 1) va := by
  obtain ⟨k, hk⟩ := pageSize_dvd_pointeeSize d
  refine Fin.ext ?_
  rw [tableIndex_val, tableIndex_val, hk, ← Nat.div_div_eq_div_mul, ← Nat.div_div_eq_div_mul,
    Nat.mul_div_cancel _ (by decide)]

lemma pathOf_page (d va : ℕ) : pathOf d (va / 4096 * 4096) = pathOf d va := by
  induction d with
  | zero => rfl
  | succ d ih => rw [pathOf_succ, pathOf_succ, ih, tableIndex_page]

lemma userLookup_page (memory : Frame → Page) (pm : Frame) (va : ℕ) :
    userLookup memory pm (va / 4096 * 4096) = userLookup memory pm va := by
  rw [userLookup, userLookup, pathOf_page]

namespace UserState

variable {s s' : UserState}

lemma Ok.step (h : s.Ok) {event : UserEvent} (hsafe : event.Safe s)
    (hstep : UserState.step event s = .ok s') : s'.Ok := by
  cases event with
  | access va =>
    rw [UserState.step] at hstep
    split_ifs at hstep with huser
    · have hva : va < memLowHalfMax := by simpa [isUserPointer] using huser
      rw [leafEntry_user h.space hva] at hstep
      cases hentry : userLookup s.heap.pmm.memory s.vm.pageMap va with
      | none =>
        rw [hentry] at hstep
        cases hstep
        exact h
      | some entry =>
        rw [hentry] at hstep
        cases hstep
        refine ⟨h.space, h.areas, List.forall_mem_cons.mpr ⟨⟨?_, entry, rfl, ?_⟩, h.tlb⟩⟩
        · exact (Nat.div_mul_le_self va 4096).trans_lt hva
        · rw [← hentry]
          exact userLookup_page _ _ va
    · cases hstep
      exact h
  | virtualMap a0 a1 a2 a3 =>
    obtain ⟨out, hmap, hs'⟩ := bind_eq_ok.mp hstep
    obtain ⟨hpages, hbounded⟩ := (virtualMap_spec h.space h.areas a0 a1 a2 a3).of_eq_ok hmap
    cases hs'
    rcases hpages with hgrows | ⟨hfixed, houtside⟩
    · refine ⟨hgrows.ok, hbounded, fun c hc => ?_⟩
      obtain ⟨hva, entry, htranslation, hentry⟩ := h.tlb c hc
      exact ⟨hva, entry, htranslation, hgrows.lookup _ hva entry hentry⟩
    · refine ⟨houtside.ok, hbounded, fun c hc => ?_⟩
      obtain ⟨hva, entry, htranslation, hentry⟩ := h.tlb c hc
      refine ⟨hva, entry, htranslation, ?_⟩
      rw [← hentry]
      exact houtside.lookup _ hva (hsafe hfixed c hc)
  | virtualUnmap a0 a1 =>
    obtain ⟨out, hunmap, hs'⟩ := bind_eq_ok.mp hstep
    obtain ⟨hspace, hbounded, hkept⟩ := (virtualUnmap_spec h.space h.areas a0 a1).of_eq_ok hunmap
    cases hres : out.1 with
    | ok u =>
      rw [hres] at hs'
      cases hs'
      exact ⟨hspace, hbounded, fun c hc => (by cases hc)⟩
    | error e =>
      rw [hres] at hs'
      cases hs'
      refine ⟨hspace, hbounded, fun c hc => ?_⟩
      obtain ⟨hva, entry, htranslation, hentry⟩ := h.tlb c hc
      refine ⟨hva, entry, htranslation, ?_⟩
      rw [← hentry]
      exact (hkept e hres).lookup _ hva

lemma Initial.ok (h : s.Initial) : s.Ok :=
  ⟨h.space, h.areas, fun c hc => by rw [h.tlb] at hc; cases hc⟩

/-- In every run in which no fixed mapping meets a cached translation, every cached translation
is the one in the page tables, and its frame is in use. -/
theorem tlb_coherent {s₀ s : UserState} (h₀ : s₀.Initial)
    (h : Reachable (· = s₀) (fun event s => event.Safe s) UserState.step s) :
    ∀ c ∈ s.tlb, (∀ va, va / 4096 = c.page →
      leafEntry s.heap.pmm.memory s.vm.pageMap va = some c.translation) ∧
      entryTarget c.translation.2 ∉ s.heap.pmm.freeList := by
  have hok : s.Ok := by
    refine h.invariant (I := UserState.Ok) ?_ fun event s s' hok hsafe hstep => hok.step hsafe hstep
    rintro _ rfl
    exact h₀.ok
  intro c hc
  obtain ⟨hva, entry, htranslation, hentry⟩ := hok.tlb c hc
  rw [htranslation]
  refine ⟨fun va hpage => ?_, ?_⟩
  · have hva' : va < memLowHalfMax := by
      simp only [memLowHalfMax] at hva ⊢
      omega
    rw [leafEntry_user hok.space hva', ← userLookup_page, hpage, hentry]
    rfl
  · exact hok.space.notMem_free (entryTarget_mem_spaceFrames hva hentry)

end UserState

/-! ### A stale translation -/

/-- What `alloc_fixed_noreplace` does where the area has its place and its pages have frames. -/
lemma Vm.allocFixedNoreplace_eq {vm : Vm} {address len : ℕ} {flags : BitVec 32}
    {heap heap₁ heap₂ : Heap} {areas : List VmArea} (hargs : VmArgs address len)
    (hlower : addrMin ≤ address) (hle : address + len ≤ addrMax)
    (hinsert : vmInsertArea vm.first address (address + len) (protToMode flags) heap =
      .ok (.ok (), areas, heap₁))
    (hassign : assignArea vm.pageMap address len flags heap₁ = .ok heap₂) :
    vm.allocFixedNoreplace address len flags heap = .ok (.ok (), areas, heap₂) := by
  have hpos := hargs.pos
  have hlt : address < addrMax := by omega
  have hrange : ¬ (address < addrMin || address ≥ addrMax || address + len > addrMax) = true := by
    simp [hlower, hlt, hle]
  unfold Vm.allocFixedNoreplace
  rw [hargs.assertValid_eq, ok_bind, hargs.uaddIsize_eq hlt, if_neg hrange, hinsert, ok_bind]
  dsimp only
  rw [hassign, ok_bind]

/-- Pages that are not mapped can be mapped as long as there are frames. -/
lemma mmuAssign_ok {pm : Frame} {address len : ℕ} {mode : MmuMode} {cache : MmuCache} {s : Pmm}
    (hr : UserRange address len) (hs : SpaceOk pm s)
    (hfree : 4 * (len / 4096) ≤ s.freeList.length) (hnone : ¬ RangeMapped pm address len s) :
    ∃ s', mmuAssign pm address len mode cache s = .ok s' ∧
      Assigned pm address len (entryFlags cache mode) s s' := by
  have hspec := @mmuAssign_spec pm address len mode cache s hr hs
  have hbudget := @mmuAssign_budget pm address len mode cache s hr hfree
  cases hassign : mmuAssign pm address len mode cache s with
  | ok s' =>
    rw [hassign] at hspec
    exact ⟨s', rfl, hspec⟩
  | error e =>
    rw [hassign] at hspec hbudget
    exact absurd (congrArg Except.error (hspec.outOfMemory hnone)) hbudget

namespace UserState

/-- A process without areas, on a machine with a few free frames and blocks for areas. -/
def blank : UserState where
  vm := VmState.blank.vm
  heap := { VmState.blank.heap with
    pmm := Pmm.blank [⟨0x3000, aligned_page3⟩, ⟨0x4000, by decide⟩, ⟨0x5000, by decide⟩,
      ⟨0x6000, by decide⟩] }
  tlb := []

lemma blank_initial : blank.Initial where
  space := by
    have hok : PageMapOk blank.vm.pageMap blank.heap.pmm := pageMapOk_blank (by decide)
    exact hok.toSpaceOk
  areas := bounded_nil
  tlb := rfl

/-- The heap once a block is taken for an area, with new physical memory. -/
def heapAfter (s' : Pmm) : Heap :=
  { blank.heap.setPool vmAreaClass
      [⟨⟨0x2000, aligned_page2⟩, 32⟩, ⟨⟨0x2000, aligned_page2⟩, 64⟩] ⟨2, 3⟩ with
    pmm := s' }

/-- The process with one readable page. -/
def readable (s' : Pmm) (tlb : List Cached) : UserState where
  vm := ⟨blank.vm.pageMap, [⟨0x1000, 0x2000, protToMode protRead,
    ⟨⟨0x2000, aligned_page2⟩, 0⟩⟩]⟩
  heap := heapAfter s'
  tlb := tlb

/-- A readable page is mapped and accessed. -/
lemma map_access : ∃ s' entry, SpaceOk blank.vm.pageMap s' ∧
    userLookup s'.memory blank.vm.pageMap 0x1000 = some entry ∧
    Reachable (· = blank) (fun event s => event.Safe s) UserState.step
      (readable s' [⟨1, (0, entry)⟩]) := by
  have hr : UserRange 0x1000 0x1000 := ⟨by decide, by decide, by decide, by decide⟩
  have hargs : VmArgs 0x1000 0x1000 := ⟨by decide, by decide, by decide, by decide⟩
  obtain ⟨s', hassign, hassigned⟩ := @mmuAssign_ok blank.vm.pageMap 0x1000 0x1000
    (protToMode protRead) MmuCache.default blank.heap.pmm hr blank_initial.space (by decide)
    fun ⟨va, _, _, hmapped⟩ => hmapped (userLookup_blank _ _ va)
  obtain ⟨page, -, hentry, -⟩ := hassigned.inside 0x1000 le_rfl (by decide)
  have harea : assignArea blank.vm.pageMap 0x1000 (0x1000 : ℕ) protRead
      (heapAfter blank.heap.pmm) = .ok (heapAfter s') := by
    have hassign' : mmuAssign blank.vm.pageMap 0x1000 (0x1000 : ℕ) (protToMode protRead)
        MmuCache.default (heapAfter blank.heap.pmm).pmm = .ok s' := hassign
    rw [assignArea, if_pos (by decide), hassign', ok_bind]
    rfl
  have hmap := @Vm.allocFixedNoreplace_eq blank.vm 0x1000 0x1000 protRead blank.heap
    (heapAfter blank.heap.pmm) (heapAfter s') (readable s' []).vm.first hargs (by decide)
    (by decide) rfl harea
  have hstep₁ : UserState.step (.virtualMap 0x1000 0x1000 1 2) blank = .ok (readable s' []) := by
    have hvirtual : virtualMap blank.vm 0x1000 0x1000 1 2 blank.heap =
        .ok (.ok 0x1000, (readable s' []).vm.first, heapAfter s') := by
      have hcheck : checkUserRange (0x1000 : Word).toNat (roundedLength 0x1000) = .ok () := rfl
      have haddress : (0x1000 : Word).toNat = 0x1000 := rfl
      have hlen : roundedLength 0x1000 = (0x1000 : ℕ) := by decide
      have hprot : (1 : Word).setWidth 32 = protRead := rfl
      unfold virtualMap
      dsimp only
      rw [hcheck]
      dsimp only
      rw [if_neg (by decide), if_neg (by decide), if_pos (by decide), if_neg (by decide),
        if_neg (by decide), haddress, hlen, hprot, hmap, ok_bind]
      rfl
    exact bind_eq_ok.mpr ⟨_, hvirtual, rfl⟩
  have hspace : SpaceOk (readable s' []).vm.pageMap (readable s' []).heap.pmm := hassigned.ok
  have hstep₂ : UserState.step (.access 0x1000) (readable s' []) =
      .ok (readable s' [⟨1, 0, entryAddressBits page ||| entryFlags MmuCache.default
        (protToMode protRead)⟩]) := by
    have hleaf : leafEntry (readable s' []).heap.pmm.memory (readable s' []).vm.pageMap 0x1000 =
        some (0, entryAddressBits page ||| entryFlags MmuCache.default (protToMode protRead)) := by
      rw [leafEntry_user hspace (by decide)]
      exact congrArg (Option.map _) hentry
    rw [UserState.step, if_pos (by decide), hleaf]
    rfl
  have hsafe : UserEvent.Safe blank (.virtualMap 0x1000 0x1000 1 2) := fun _ c hc => (by cases hc)
  exact ⟨s', _, hassigned.ok, hentry,
    .step (.access 0x1000) (.step _ (.init rfl) hsafe hstep₁) trivial hstep₂⟩

/-- The translation that is cached by the access is in the page tables. -/
theorem tlb_coherent_access : ∃ s' entry, ∀ c ∈ (readable s' [⟨1, (0, entry)⟩]).tlb,
    (∀ va, va / 4096 = c.page → leafEntry (readable s' [⟨1, (0, entry)⟩]).heap.pmm.memory
      (readable s' [⟨1, (0, entry)⟩]).vm.pageMap va = some c.translation) ∧
      entryTarget c.translation.2 ∉ (readable s' [⟨1, (0, entry)⟩]).heap.pmm.freeList := by
  obtain ⟨s', entry, -, -, hrun⟩ := map_access
  exact ⟨s', entry, tlb_coherent blank_initial hrun⟩

/-- The page is mapped anew without access: its old translation stays in the cache. -/
theorem tlb_stale : blank.Initial ∧ ∃ s,
    Reachable (· = blank) (fun _ _ => True) UserState.step s ∧
    ∃ c ∈ s.tlb, ∃ va, va / 4096 = c.page ∧
      leafEntry s.heap.pmm.memory s.vm.pageMap va ≠ some c.translation := by
  obtain ⟨s', entry, hspace, hentry, hrun⟩ := map_access
  have hargs : VmArgs 0x1000 0x1000 := ⟨by decide, by decide, by decide, by decide⟩
  obtain ⟨heap₁, hroute, hpmm, block, next, hpool⟩ : ∃ heap₁,
      vmClearForInsert (readable s' []).vm.first 0x1000 (0x1000 + 0x1000) (heapAfter s') =
        .ok (.ok ⟨[], [], false⟩, heap₁) ∧ heap₁.pmm = s' ∧
      ∃ block next, heap₁.pools 2 = block :: next := ⟨_, rfl, rfl, _, _, rfl⟩
  have hspace₁ : SpaceOk (readable s' []).vm.pageMap heap₁.pmm := hpmm ▸ hspace
  obtain ⟨heap₂, hout⟩ := Vm.allocFixedOverwrite_eq hspace₁ hargs (by decide) (by decide) hroute
    hpool
  have hspec := (@Vm.allocFixedOverwrite_spec (readable s' []).vm 0x1000 0x1000 0 (heapAfter s')
    hargs hspace).of_eq_ok hout
  have hstep : ∃ areas, UserState.step (.virtualMap 0x1000 0x1000 0 1)
      (readable s' [⟨1, (0, entry)⟩]) =
        .ok ⟨⟨blank.vm.pageMap, areas⟩, heap₂, [⟨1, (0, entry)⟩]⟩ := by
    have hcheck : checkUserRange (0x1000 : Word).toNat (roundedLength 0x1000) = .ok () := rfl
    have haddress : (0x1000 : Word).toNat = 0x1000 := rfl
    have hlen : roundedLength 0x1000 = (0x1000 : ℕ) := by decide
    have hprot : (0 : Word).setWidth 32 = (0 : BitVec 32) := rfl
    have hvirtual : ∃ areas, virtualMap (readable s' []).vm 0x1000 0x1000 0 1 (heapAfter s') =
        .ok (.ok 0x1000, areas, heap₂) := by
      unfold virtualMap
      dsimp only
      rw [hcheck]
      dsimp only
      rw [if_neg (by decide), if_neg (by decide), if_pos (by decide), if_neg (by decide),
        if_pos (by decide), haddress, hlen, hprot, hout, ok_bind]
      exact ⟨_, rfl⟩
    obtain ⟨areas, hvirtual⟩ := hvirtual
    exact ⟨areas, bind_eq_ok.mpr ⟨_, hvirtual, rfl⟩⟩
  obtain ⟨areas, hstep⟩ := hstep
  have hany : Reachable (· = blank) (fun _ _ => True) UserState.step
      (readable s' [⟨1, (0, entry)⟩]) := hrun.weaken fun _ _ _ => trivial
  refine ⟨blank_initial, _, .step _ hany trivial hstep, ⟨1, (0, entry)⟩, by simp, 0x1000, rfl, ?_⟩
  have hpages := hspec.done rfl
  have hnone := hpages.lookup 0x1000 (by decide)
  rw [ReplacedIn, if_pos ⟨le_rfl, by decide⟩, if_pos rfl] at hnone
  have hleaf : leafEntry heap₂.pmm.memory blank.vm.pageMap 0x1000 = none :=
    (leafEntry_user_eq_none hpages.ok (by decide)).mpr hnone
  intro h
  have h' : leafEntry heap₂.pmm.memory blank.vm.pageMap 0x1000 = some (0, entry) := h
  rw [hleaf] at h'
  cases h'

end UserState

end Fluke
