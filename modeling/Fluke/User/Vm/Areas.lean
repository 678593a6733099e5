import Fluke.User.Vm
import Fluke.X86.Mmu.Isolation

/-!
# The list of areas

A list of areas is well formed when its areas are proper, page-aligned ranges of user addresses
in ascending order without overlap. `Covers` reads the list as a set: the addresses it covers
and with which flags. Each loop over the list is specified by these two.
-/

namespace Fluke

open Outcome

/-- A proper, page-aligned range of addresses that areas may have. -/
structure VmArea.Ok (area : VmArea) : Prop where
  lt : area.begin < area.end_
  begin_aligned : 4096 ∣ area.begin
  end_aligned : 4096 ∣ area.end_
  lower : addrMin ≤ area.begin
  upper : area.end_ ≤ addrMax

/-- Every area ends where the next one begins, or before. -/
structure WellFormed (areas : List VmArea) : Prop where
  ok : ∀ area ∈ areas, area.Ok
  sorted : areas.Pairwise fun a b => a.end_ ≤ b.begin

/-- An area of the list covers the address with these flags. -/
def Covers (areas : List VmArea) (va : ℕ) (flags : MmuMode) : Prop :=
  ∃ area ∈ areas, area.begin ≤ va ∧ va < area.end_ ∧ area.flags = flags

/-- A page-aligned, non-empty range below `ADDR_MAX`. -/
structure AreaRange (address end_ : ℕ) : Prop where
  lt : address < end_
  begin_aligned : 4096 ∣ address
  end_aligned : 4096 ∣ end_
  upper : end_ ≤ addrMax

section

variable {areas areas' passed rest : List VmArea} {area : VmArea} {address end_ va : ℕ}
  {flags : MmuMode}

@[simp] lemma covers_nil : ¬ Covers [] va flags := by simp [Covers]

lemma covers_cons : Covers (area :: areas) va flags ↔
    (area.begin ≤ va ∧ va < area.end_ ∧ area.flags = flags) ∨ Covers areas va flags := by
  simp [Covers]

lemma covers_append : Covers (areas ++ areas') va flags ↔
    Covers areas va flags ∨ Covers areas' va flags := by
  simp [Covers, or_and_right, exists_or]

lemma wellFormed_nil : WellFormed [] := ⟨by simp, by simp⟩

lemma wellFormed_cons : WellFormed (area :: areas) ↔
    area.Ok ∧ (∀ b ∈ areas, area.end_ ≤ b.begin) ∧ WellFormed areas := by
  constructor
  · rintro ⟨hok, hsorted⟩
    obtain ⟨hlt, hrest⟩ := List.pairwise_cons.mp hsorted
    exact ⟨hok area List.mem_cons_self, hlt, fun b hb => hok b (List.mem_cons_of_mem _ hb), hrest⟩
  · rintro ⟨harea, hlt, hrest⟩
    refine ⟨fun b hb => ?_, List.pairwise_cons.mpr ⟨hlt, hrest.sorted⟩⟩
    rcases List.mem_cons.mp hb with rfl | hb
    · exact harea
    · exact hrest.ok b hb

/-- What is not covered below an address has no area below it. -/
lemma WellFormed.lower (h : WellFormed areas) {lo : ℕ}
    (hlo : ∀ va flags, Covers areas va flags → lo ≤ va) : ∀ a ∈ areas, lo ≤ a.begin :=
  fun a ha => hlo a.begin a.flags ⟨a, ha, le_rfl, (h.ok a ha).lt, rfl⟩

lemma covers_lower {lo : ℕ} (h : ∀ a ∈ areas, lo ≤ a.begin) (hc : Covers areas va flags) :
    lo ≤ va := by
  obtain ⟨a, ha, hbegin, -, -⟩ := hc
  exact (h a ha).trans hbegin

/-- An area between two parts of a list. -/
lemma wellFormed_insert (h : WellFormed (passed ++ rest)) (harea : area.Ok)
    (hpassed : ∀ a ∈ passed, a.end_ ≤ area.begin) (hrest : ∀ a ∈ rest, area.end_ ≤ a.begin) :
    WellFormed (passed ++ area :: rest) := by
  obtain ⟨hsorted, hsorted', hbetween⟩ := List.pairwise_append.mp h.sorted
  refine ⟨fun a ha => ?_, List.pairwise_append.mpr
    ⟨hsorted, List.pairwise_cons.mpr ⟨hrest, hsorted'⟩, fun a ha b hb => ?_⟩⟩
  · rcases List.mem_append.mp ha with ha | ha
    · exact h.ok a (List.mem_append_left _ ha)
    · rcases List.mem_cons.mp ha with rfl | ha
      · exact harea
      · exact h.ok a (List.mem_append_right _ ha)
  · rcases List.mem_cons.mp hb with rfl | hb
    · exact hpassed a ha
    · exact hbetween a ha b hb

end

/-! ### `vm_clear_for_insert` -/

/-- An area reaches beyond the range on both sides. -/
def StrictlyInside (areas : List VmArea) (address end_ : ℕ) : Prop :=
  ∃ area ∈ areas, area.begin < address ∧ end_ < area.end_

/-- What the loop of `vm_clear_for_insert` makes of the areas. -/
structure AreasCleared (address end_ : ℕ) (areas : List VmArea) (route : Route) : Prop where
  wellFormed : WellFormed (route.passed ++ route.rest)
  covers : ∀ va flags, Covers (route.passed ++ route.rest) va flags ↔
    Covers areas va flags ∧ ¬ (address ≤ va ∧ va < end_)
  passed : ∀ a ∈ route.passed, a.end_ ≤ address
  rest : route.usedSpare = false → ∀ a ∈ route.rest, end_ ≤ a.begin
  inside : route.usedSpare = true → StrictlyInside areas address end_

lemma freeArea_spec (area : Block) (heap : Heap) :
    Ensures (fun _ => False) (fun s' => s'.pmm = heap.pmm) (freeArea area heap) :=
  kfree_spec (by decide) area heap

lemma makeArea_spec {heap : Heap} (h : heap.pmm.Counted) :
    Ensures (fun _ => False) (fun r => HeapStep heap r.2) (makeArea heap) :=
  kalloc_spec (by decide) h

/-- The class of the blocks that areas are stored in. -/
def vmAreaClass : Fin 10 := ⟨2, by decide⟩

lemma allocCalcSizeClass_vmArea : allocCalcSizeClass vmAreaSize = vmAreaClass := by decide

lemma makeArea_cons {heap : Heap} {b : Block} {next : List Block}
    (h : heap.pools vmAreaClass = b :: next) :
    makeArea heap = .ok (some b, heap.setPool vmAreaClass next
      { heap.stats vmAreaClass with freeCount := (heap.stats vmAreaClass).freeCount - 1 }) := by
  rw [makeArea, kalloc, allocCalcSizeClass_vmArea, kallocClass, checkSizeClass_fin, ok_bind]
  simp only [h]

lemma makeArea_nil {heap : Heap} (h : heap.pools vmAreaClass = []) :
    makeArea heap = allocFromFreshPage vmAreaClass heap := by
  rw [makeArea, kalloc, allocCalcSizeClass_vmArea, kallocClass, checkSizeClass_fin, ok_bind]
  simp only [h]

lemma freeArea_eq (b : Block) (heap : Heap) :
    freeArea b heap = .ok (heap.setPool vmAreaClass (b :: heap.pools vmAreaClass)
      { heap.stats vmAreaClass with freeCount := (heap.stats vmAreaClass).freeCount + 1 }) := by
  rw [freeArea, kfree, allocCalcSizeClass_vmArea, kfreeClass, checkSizeClass_fin, ok_bind]

/-- An area that the loop passes. -/
lemma AreasCleared.cons {address end_ : ℕ} {area area' : VmArea} {areas : List VmArea}
    {route : Route} (h : AreasCleared address end_ areas route)
    (hwf : WellFormed (area :: areas)) (harea' : area'.Ok) (hend : area'.end_ ≤ area.end_)
    (haddress : area'.end_ ≤ address)
    (hcovers : ∀ va flags, (area'.begin ≤ va ∧ va < area'.end_ ∧ area'.flags = flags) ↔
      (area.begin ≤ va ∧ va < area.end_ ∧ area.flags = flags) ∧ ¬ (address ≤ va ∧ va < end_)) :
    AreasCleared address end_ (area :: areas) { route with passed := area' :: route.passed } := by
  obtain ⟨-, hafter, -⟩ := wellFormed_cons.mp hwf
  refine ⟨wellFormed_cons.mpr ⟨harea', h.wellFormed.lower fun va flags hc => ?_, h.wellFormed⟩,
    fun va flags => ?_, fun a ha => ?_, h.rest, fun hused => ?_⟩
  · exact hend.trans (covers_lower hafter ((h.covers va flags).mp hc).1)
  · rw [List.cons_append, covers_cons, covers_cons, hcovers va flags, h.covers va flags]
    tauto
  · rcases List.mem_cons.mp ha with rfl | ha
    · exact haddress
    · exact h.passed a ha
  · obtain ⟨a, ha, hlo, hhi⟩ := h.inside hused
    exact ⟨a, List.mem_cons_of_mem _ ha, hlo, hhi⟩

/-- The six ways in which an area and a range lie. -/
lemma findOverlap_cases (area : VmArea) (address end_ : ℕ) :
    (area.findOverlap address end_ = .after ∧ end_ ≤ area.begin) ∨
    (area.findOverlap address end_ = .before ∧ area.end_ ≤ address) ∨
    (area.findOverlap address end_ = .whole ∧ address ≤ area.begin ∧ area.end_ ≤ end_) ∨
    (area.findOverlap address end_ = .startsWith ∧ address ≤ area.begin ∧ area.begin < end_ ∧
      end_ < area.end_) ∨
    (area.findOverlap address end_ = .endsWith ∧ area.begin < address ∧ address < area.end_ ∧
      area.end_ ≤ end_) ∨
    (area.findOverlap address end_ = .contains ∧ area.begin < address ∧ end_ < area.end_) := by
  unfold VmArea.findOverlap
  split_ifs <;> simp <;> omega

lemma clearLoop_spec {address end_ : ℕ} (hr : AreaRange address end_) (spare : Block)
    {areas : List VmArea} (hwf : WellFormed areas) (heap : Heap) :
    Ensures (fun _ => False) (fun r => AreasCleared address end_ areas r.1 ∧ r.2.pmm = heap.pmm)
      (clearLoop address end_ spare areas heap) := by
  have hlt := hr.lt
  induction areas generalizing heap with
  | nil =>
    exact ⟨⟨wellFormed_nil, by simp, by simp, by simp, by simp⟩, rfl⟩
  | cons area next ih =>
    obtain ⟨harea, hafter, hnext⟩ := wellFormed_cons.mp hwf
    have hareaLt := harea.lt
    unfold clearLoop
    rcases findOverlap_cases area address end_ with ⟨hov, h⟩ | ⟨hov, h⟩ | ⟨hov, h1, h2⟩ |
      ⟨hov, h1, h2, h3⟩ | ⟨hov, h1, h2, h3⟩ | ⟨hov, h1, h2⟩ <;> rw [hov] <;> dsimp only
    · -- after
      have hfar : ∀ a ∈ area :: next, end_ ≤ a.begin := by
        intro a ha
        rcases List.mem_cons.mp ha with rfl | ha
        · exact h
        · exact (h.trans hareaLt.le).trans (hafter a ha)
      refine ⟨⟨hwf, fun va flags => ?_, by simp, fun _ => hfar, by simp⟩, rfl⟩
      refine ⟨fun hc => ⟨hc, fun hin => ?_⟩, fun hc => hc.1⟩
      have hlo := covers_lower hfar hc
      omega
    · -- before
      refine (ih hnext heap).bind fun r hcleared => ?_
      refine ⟨hcleared.1.cons hwf harea le_rfl h fun va flags => ?_, hcleared.2⟩
      refine ⟨fun hc => ⟨hc, ?_⟩, fun hc => hc.1⟩
      omega
    · -- whole
      refine (freeArea_spec area.block heap).bind fun heap₁ hpmm => ?_
      refine (ih hnext heap₁).imp fun r hcleared => ?_
      obtain ⟨hcleared, hpmm'⟩ := hcleared
      refine ⟨⟨hcleared.wellFormed, fun va flags => ?_, hcleared.passed, hcleared.rest,
        fun hused => ?_⟩, hpmm'.trans hpmm⟩
      · rw [hcleared.covers va flags, covers_cons]
        constructor
        · exact fun hc => ⟨Or.inr hc.1, hc.2⟩
        · rintro ⟨⟨hlo, hhi, -⟩ | hc, hout⟩
          · omega
          · exact ⟨hc, hout⟩
      · obtain ⟨a, ha, hlo, hhi⟩ := hcleared.inside hused
        exact ⟨a, List.mem_cons_of_mem _ ha, hlo, hhi⟩
    · -- startsWith
      have hok : ({ area with begin := end_ } : VmArea).Ok :=
        ⟨h3, hr.end_aligned, harea.end_aligned, harea.lower.trans h2.le, harea.upper⟩
      have hfar : ∀ a ∈ { area with begin := end_ } :: next, end_ ≤ a.begin := by
        intro a ha
        rcases List.mem_cons.mp ha with rfl | ha
        · exact le_rfl
        · exact h3.le.trans (hafter a ha)
      unfold assert
      rw [if_pos (decide_eq_true h3), ok_bind]
      refine ⟨⟨wellFormed_cons.mpr ⟨hok, hafter, hnext⟩, fun va flags => ?_, by simp,
        fun _ => hfar, by simp⟩, rfl⟩
      rw [List.nil_append, covers_cons, covers_cons]
      constructor
      · rintro (⟨hlo, hhi, hflags⟩ | hc)
        · dsimp only at hlo hhi hflags
          exact ⟨Or.inl ⟨by omega, hhi, hflags⟩, by omega⟩
        · have hlo := covers_lower hafter hc
          exact ⟨Or.inr hc, by omega⟩
      · rintro ⟨⟨hlo, hhi, hflags⟩ | hc, hout⟩
        · exact Or.inl ⟨by dsimp only; omega, hhi, hflags⟩
        · exact Or.inr hc
    · -- endsWith
      have hok : ({ area with end_ := address } : VmArea).Ok :=
        ⟨h1, harea.begin_aligned, hr.begin_aligned, harea.lower, h2.le.trans harea.upper⟩
      unfold assert
      rw [if_pos (decide_eq_true h1), ok_bind]
      refine (ih hnext heap).bind fun r hcleared => ?_
      refine ⟨hcleared.1.cons hwf hok h2.le le_rfl fun va flags => ?_, hcleared.2⟩
      dsimp only
      constructor
      · rintro ⟨hlo, hhi, hflags⟩
        exact ⟨⟨hlo, by omega, hflags⟩, by omega⟩
      · rintro ⟨⟨hlo, hhi, hflags⟩, hout⟩
        exact ⟨hlo, by omega, hflags⟩
    · -- contains
      have hleft : ({ area with end_ := address } : VmArea).Ok :=
        ⟨h1, harea.begin_aligned, hr.begin_aligned, harea.lower, hlt.le.trans hr.upper⟩
      have hright : ({ area with begin := end_, block := spare } : VmArea).Ok :=
        ⟨h2, hr.end_aligned, harea.end_aligned, harea.lower.trans (by dsimp only; omega),
          harea.upper⟩
      refine ⟨⟨wellFormed_cons.mpr ⟨hleft, fun b hb => ?_, wellFormed_cons.mpr
        ⟨hright, hafter, hnext⟩⟩, fun va flags => ?_, by simp, by simp,
        fun _ => ⟨area, List.mem_cons_self, h1, h2⟩⟩, rfl⟩
      · rcases List.mem_cons.mp hb with rfl | hb
        · exact hlt.le
        · exact (hlt.le.trans h2.le).trans (hafter b hb)
      · rw [List.nil_append, covers_cons, covers_cons, covers_cons]
        constructor
        · rintro (⟨hlo, hhi, hflags⟩ | ⟨hlo, hhi, hflags⟩ | hc)
          · dsimp only at hlo hhi hflags
            exact ⟨Or.inl ⟨hlo, by omega, hflags⟩, by omega⟩
          · dsimp only at hlo hhi hflags
            exact ⟨Or.inl ⟨by omega, hhi, hflags⟩, by omega⟩
          · have hlo := covers_lower hafter hc
            exact ⟨Or.inr hc, by omega⟩
        · rintro ⟨⟨hlo, hhi, hflags⟩ | hc, hout⟩
          · by_cases hva : va < address
            · exact Or.inl ⟨hlo, hva, hflags⟩
            · exact Or.inr (Or.inl ⟨by dsimp only; omega, hhi, hflags⟩)
          · exact Or.inr (Or.inr hc)

/-! ### `vm_insert_area` -/

/-- The areas before the place that the loop of `vm_insert_area` finds, and the others. -/
lemma insertLoop_spec (address : ℕ) (areas : List VmArea) :
    areas = (insertLoop address areas).1 ++ (insertLoop address areas).2 ∧
      (∀ a ∈ (insertLoop address areas).1, a.end_ ≤ address) ∧
      ∀ next rest, (insertLoop address areas).2 = next :: rest → address < next.end_ := by
  induction areas with
  | nil => simp [insertLoop]
  | cons area areas ih =>
    obtain ⟨happend, hpassed, hnext⟩ := ih
    unfold insertLoop
    split_ifs with h
    · refine ⟨rfl, by simp, fun next rest heq => ?_⟩
      cases heq
      exact h
    · refine ⟨congrArg (area :: ·) happend, fun a ha => ?_, hnext⟩
      rcases List.mem_cons.mp ha with rfl | ha
      · exact not_lt.mp h
      · exact hpassed a ha

/-- The range meets none of the areas. -/
def Disjoint' (areas : List VmArea) (address end_ : ℕ) : Prop :=
  ∀ a ∈ areas, a.end_ ≤ address ∨ end_ ≤ a.begin

/-! ### `merge_regions_after` -/

/-- Merging keeps what the areas cover. -/
lemma mergeRegionsAfter_spec {area : VmArea} {rest : List VmArea}
    (hsorted : (area :: rest).Pairwise fun a b => a.end_ ≤ b.begin)
    (hrest : ∀ a ∈ rest, a.Ok) (heap : Heap) :
    Ensures (fun _ => False) (fun r => r.1.begin = area.begin ∧ r.1.flags = area.flags ∧
      area.end_ ≤ r.1.end_ ∧ (area.Ok → r.1.Ok) ∧
      (r.1 :: r.2.1).Pairwise (fun a b => a.end_ ≤ b.begin) ∧ (∀ a ∈ r.2.1, a.Ok) ∧
      (∀ va flags, area.begin ≤ area.end_ →
        (Covers (r.1 :: r.2.1) va flags ↔ Covers (area :: rest) va flags)) ∧
      r.2.2.pmm = heap.pmm)
      (mergeRegionsAfter area rest heap) := by
  induction rest generalizing area heap with
  | nil => exact ⟨rfl, rfl, le_rfl, id, hsorted, by simp, fun _ _ _ => Iff.rfl, rfl⟩
  | cons next rest ih =>
    obtain ⟨hafter, hsorted'⟩ := List.pairwise_cons.mp hsorted
    obtain ⟨hafter', hsorted''⟩ := List.pairwise_cons.mp hsorted'
    have hnext := hrest next List.mem_cons_self
    have hnextLt := hnext.lt
    unfold mergeRegionsAfter
    split_ifs with h
    · obtain ⟨hend, hflags⟩ := h
      refine (freeArea_spec next.block heap).bind fun heap₁ hpmm => ?_
      have hmerged : ({ area with end_ := next.end_ } :: rest).Pairwise
          fun a b => a.end_ ≤ b.begin := List.pairwise_cons.mpr ⟨hafter', hsorted''⟩
      refine (ih hmerged (fun a ha => hrest a (List.mem_cons_of_mem _ ha)) heap₁).imp fun r hr => ?_
      obtain ⟨hbegin, hflags', hle, hok, hpair, hoks, hcovers, hpmm'⟩ := hr
      refine ⟨hbegin, hflags', ?_, fun harea => hok ?_, hpair, hoks, fun va flags hproper => ?_,
        hpmm'.trans hpmm⟩
      · dsimp only at hle
        omega
      · have hlt := harea.lt
        exact ⟨by dsimp only; omega, harea.begin_aligned, hnext.end_aligned, harea.lower,
          hnext.upper⟩
      · rw [hcovers va flags (by dsimp only; omega), covers_cons, covers_cons, covers_cons]
        dsimp only
        constructor
        · rintro (⟨hlo, hhi, hf⟩ | hc)
          · by_cases hva : va < area.end_
            · exact Or.inl ⟨hlo, hva, hf⟩
            · exact Or.inr (Or.inl ⟨by omega, hhi, by rw [← hflags]; exact hf⟩)
          · exact Or.inr (Or.inr hc)
        · rintro (⟨hlo, hhi, hf⟩ | ⟨hlo, hhi, hf⟩ | hc)
          · exact Or.inl ⟨hlo, by omega, hf⟩
          · exact Or.inl ⟨by omega, hhi, by rw [hflags]; exact hf⟩
          · exact Or.inr hc
    · exact ⟨rfl, rfl, le_rfl, id, hsorted, hrest, fun _ _ _ => Iff.rfl, rfl⟩

/-! ### Gaps -/

/-- An area of the list ends at `lo`, and what follows it begins at `hi`. -/
def GapIn : List VmArea → ℕ → ℕ → Prop
  | [], _, _ => False
  | area :: next, lo, hi => (lo = area.end_ ∧ hi = nextBegin next) ∨ GapIn next lo hi

/-- `[lo, hi)` lies between an area, or the begin of the address space, and the area that
follows, or the end of the address space. -/
def IsGap (areas : List VmArea) (lo hi : ℕ) : Prop := GapIn (vmListBegin :: areas) lo hi

/-- The gap is large enough. -/
def Roomy (length lo hi : ℕ) : Prop := lo + length ≤ hi

/-- The last roomy gap that begins below the hint has room for the whole length from the hint
on, unless a roomy gap above the hint is nearer. -/
def HintFits (areas : List VmArea) (hint length : ℕ) : Prop :=
  ∀ lo hi, IsGap areas lo hi → Roomy length lo hi → lo < hint →
    (∀ lo' hi', IsGap areas lo' hi' → Roomy length lo' hi' → lo' < hint → lo' ≤ lo) →
    (∀ lo' hi', IsGap areas lo' hi' → Roomy length lo' hi' → hint ≤ lo' →
      hint - lo ≤ lo' - hint) →
    hint + length ≤ hi

/-- Areas in ascending order, where the first one may be empty. -/
structure AreaList (list : List VmArea) : Prop where
  proper : ∀ a ∈ list, a.begin ≤ a.end_ ∧ a.end_ ≤ addrMax
  sorted : list.Pairwise fun a b => a.end_ ≤ b.begin

lemma WellFormed.areaList {areas : List VmArea} (h : WellFormed areas) :
    AreaList (vmListBegin :: areas) := by
  refine ⟨fun a ha => ?_, List.pairwise_cons.mpr ⟨fun a ha => (h.ok a ha).lower, h.sorted⟩⟩
  rcases List.mem_cons.mp ha with rfl | ha
  · decide
  · exact ⟨(h.ok a ha).lt.le, (h.ok a ha).upper⟩

namespace AreaList

variable {area : VmArea} {next list : List VmArea}

lemma tail (h : AreaList (area :: next)) : AreaList next :=
  ⟨fun a ha => h.proper a (List.mem_cons_of_mem _ ha), (List.pairwise_cons.mp h.sorted).2⟩

lemma nextBegin_bounds (h : AreaList (area :: next)) :
    area.end_ ≤ nextBegin next ∧ nextBegin next ≤ addrMax := by
  cases next with
  | nil => exact ⟨(h.proper area List.mem_cons_self).2, le_rfl⟩
  | cons b rest =>
    have hb := h.proper b (List.mem_cons_of_mem _ List.mem_cons_self)
    exact ⟨(List.pairwise_cons.mp h.sorted).1 b List.mem_cons_self, hb.1.trans hb.2⟩

lemma spaceAfter_eq (h : AreaList (area :: next)) :
    area.spaceAfter next.head? = ((nextBegin next - area.end_ : ℕ) : ℤ) := by
  obtain ⟨hlo, hhi⟩ := h.nextBegin_bounds
  have heq : area.spaceAfter next.head? = toIsize (usub (nextBegin next) area.end_) := by
    cases next <;> rfl
  simp only [addrMax, memLowHalfMax] at hhi
  rw [heq, usub_of_le hlo (by omega), toIsize_of_lt (by omega)]

lemma roomy_iff (h : AreaList (area :: next)) (length : ℕ) :
    area.spaceAfter next.head? ≥ (length : ℤ) ↔ Roomy length area.end_ (nextBegin next) := by
  have hlo := h.nextBegin_bounds.1
  rw [h.spaceAfter_eq]
  unfold Roomy
  omega

/-- The gaps after an area begin behind it. -/
lemma le_of_gapIn (h : AreaList list) {lo hi bound : ℕ} (hbound : ∀ a ∈ list, bound ≤ a.end_)
    (hgap : GapIn list lo hi) : bound ≤ lo := by
  induction list with
  | nil => exact hgap.elim
  | cons area next ih =>
    rcases hgap with ⟨rfl, -⟩ | hgap
    · exact hbound area List.mem_cons_self
    · exact ih h.tail (fun a ha => hbound a (List.mem_cons_of_mem _ ha)) hgap

lemma end_le (h : AreaList (area :: next)) : ∀ a ∈ next, area.end_ ≤ a.end_ := fun a ha =>
  ((List.pairwise_cons.mp h.sorted).1 a ha).trans (h.proper a (List.mem_cons_of_mem _ ha)).1

end AreaList

/-- What the loop of `alloc_movable` finds in the list, from the `i`-th area on and with the
region it has found before. -/
inductive Found (hint length : ℕ) (list : List VmArea) (i : ℕ) (region : Region) : Region → Prop
  | nothing (h : region = none) (hno : ∀ lo hi, GapIn list lo hi → ¬ Roomy length lo hi) :
    Found hint length list i region none
  | kept {r : VmArea} {j : ℕ} (h : region = some (r, j))
    (hlast : ∀ lo hi, GapIn list lo hi → Roomy length lo hi →
      hint ≤ lo ∧ hint - r.end_ ≤ lo - hint) :
    Found hint length list i region (some (r, j))
  | below {pre post : List VmArea} {r : VmArea} {j : ℕ} (hlist : list = pre ++ r :: post)
    (hj : j = i + pre.length) (hroomy : Roomy length r.end_ (nextBegin post)) (hlo : r.end_ < hint)
    (hlast : ∀ lo hi, GapIn list lo hi → Roomy length lo hi →
      lo ≤ r.end_ ∨ hint ≤ lo ∧ hint - r.end_ ≤ lo - hint) :
    Found hint length list i region (some (r, j))
  | above {pre post : List VmArea} {r : VmArea} {j : ℕ} (hlist : list = pre ++ r :: post)
    (hj : j = i + pre.length) (hroomy : Roomy length r.end_ (nextBegin post)) (hlo : hint ≤ r.end_)
    (hnear : ∀ lo hi, GapIn list lo hi → Roomy length lo hi → lo < hint →
      r.end_ - hint < hint - lo)
    (hregion : ∀ b j', region = some (b, j') → r.end_ - hint < hint - b.end_) :
    Found hint length list i region (some (r, j))

/-- Passing an area without room. -/
lemma Found.skip {hint length i : ℕ} {area : VmArea} {next : List VmArea} {region found : Region}
    (h : Found hint length next (i + 1) region found)
    (hroom : ¬ Roomy length area.end_ (nextBegin next)) :
    Found hint length (area :: next) i region found := by
  have hgap : ∀ {lo hi}, GapIn (area :: next) lo hi → Roomy length lo hi → GapIn next lo hi := by
    rintro lo hi (⟨rfl, rfl⟩ | hgap) hroomy
    · exact absurd hroomy hroom
    · exact hgap
  cases h with
  | nothing h hno => exact .nothing h fun lo hi hg hr => hno lo hi (hgap hg hr) hr
  | kept h hlast => exact .kept h fun lo hi hg hr => hlast lo hi (hgap hg hr) hr
  | @below pre post r j hlist hj hroomy hlo hlast =>
    have hcons : area :: next = (area :: pre) ++ r :: post := congrArg (area :: ·) hlist
    exact .below hcons (by rw [hj, List.length_cons]; omega) hroomy hlo
      fun lo hi hg hr => hlast lo hi (hgap hg hr) hr
  | @above pre post r j hlist hj hroomy hlo hnear hregion =>
    have hcons : area :: next = (area :: pre) ++ r :: post := congrArg (area :: ·) hlist
    exact .above hcons (by rw [hj, List.length_cons]; omega) hroomy hlo
      (fun lo hi hg hr => hnear lo hi (hgap hg hr) hr) hregion

/-- Passing an area with room below the hint: it is the best so far. -/
lemma Found.take {hint length i : ℕ} {area : VmArea} {next : List VmArea} {region found : Region}
    (hlist : AreaList (area :: next))
    (h : Found hint length next (i + 1) (some (area, i)) found)
    (hroom : Roomy length area.end_ (nextBegin next)) (hlt : area.end_ < hint)
    (hregion : ∀ b j, region = some (b, j) → b.end_ ≤ area.end_) :
    Found hint length (area :: next) i region found := by
  cases h with
  | nothing h _ => cases h
  | @kept r j h hlast =>
    cases h
    refine .below (List.nil_append _).symm rfl hroom hlt ?_
    rintro lo hi (⟨rfl, rfl⟩ | hgap) hroomy
    · exact Or.inl le_rfl
    · exact Or.inr (hlast lo hi hgap hroomy)
  | @below pre post r j hlist' hj hroomy hlo hlast =>
    have hcons : area :: next = (area :: pre) ++ r :: post := congrArg (area :: ·) hlist'
    refine .below hcons (by rw [hj, List.length_cons]; omega) hroomy hlo ?_
    rintro lo hi (⟨rfl, rfl⟩ | hgap) hr
    · refine Or.inl (hlist.end_le r ?_)
      rw [hlist']
      exact List.mem_append_right _ List.mem_cons_self
    · exact hlast lo hi hgap hr
  | @above pre post r j hlist' hj hroomy hlo hnear hregion' =>
    have hfar := hregion' area i rfl
    have hcons : area :: next = (area :: pre) ++ r :: post := congrArg (area :: ·) hlist'
    refine .above hcons (by rw [hj, List.length_cons]; omega) hroomy hlo ?_
      fun b j' hb => ?_
    · rintro lo hi (⟨rfl, rfl⟩ | hgap) hr hlo'
      · exact hfar
      · exact hnear lo hi hgap hr hlo'
    · have hle := hregion b j' hb
      omega

lemma findRegion_spec {hint length : ℕ} (hhint : hint < addrMax) {list : List VmArea}
    (hlist : AreaList list) (i : ℕ) (region : Region)
    (hregion : ∀ b j, region = some (b, j) → b.end_ < hint ∧ ∀ a ∈ list, b.end_ ≤ a.end_) :
    Found hint length list i region (findRegion hint length list i region) := by
  induction list generalizing i region with
  | nil =>
    unfold findRegion
    cases region with
    | none => exact .nothing rfl fun _ _ h => h.elim
    | some b => exact .kept rfl fun _ _ h => h.elim
  | cons area next ih =>
    have hregion' : ∀ b j, region = some (b, j) → b.end_ < hint ∧ ∀ a ∈ next, b.end_ ≤ a.end_ :=
      fun b j hb =>
        ⟨(hregion b j hb).1, fun a ha => (hregion b j hb).2 a (List.mem_cons_of_mem _ ha)⟩
    unfold findRegion
    split_ifs with hroom hlt <;> rw [hlist.roomy_iff length] at hroom
    · refine Found.take hlist (ih hlist.tail (i + 1) (some (area, i)) ?_) hroom hlt
        fun b j hb => (hregion b j hb).2 area List.mem_cons_self
      rintro b j hb
      cases hb
      exact ⟨hlt, hlist.end_le⟩
    · -- the first gap with room at or above the hint ends the search
      have hlater : ∀ lo hi, GapIn (area :: next) lo hi → area.end_ ≤ lo := by
        intro lo hi hgap
        refine hlist.le_of_gapIn (fun a ha => ?_) hgap
        rcases List.mem_cons.mp ha with rfl | ha
        · exact le_rfl
        · exact hlist.end_le a ha
      have hend := (hlist.proper area List.mem_cons_self).2
      have hnear : ∀ lo hi, GapIn (area :: next) lo hi → Roomy length lo hi → lo < hint →
          area.end_ - hint < hint - lo := by
        intro lo hi hgap _ hlo
        have hle := hlater lo hi hgap
        omega
      cases region with
      | none =>
        exact .above (List.nil_append _).symm rfl hroom (not_lt.mp hlt) hnear
          fun _ _ hb => by cases hb
      | some b =>
        obtain ⟨best, j⟩ := b
        obtain ⟨hbest, -⟩ := hregion best j rfl
        simp only [addrMax, memLowHalfMax] at hhint hend
        dsimp only
        rw [usub_of_le (not_lt.mp hlt) (by omega), usub_of_le hbest.le (by omega)]
        split_ifs with hcmp
        · refine .above (List.nil_append _).symm rfl hroom (not_lt.mp hlt) hnear fun b j' hb => ?_
          cases hb
          exact hcmp
        · refine .kept rfl fun lo hi hgap _ => ?_
          have hle := hlater lo hi hgap
          omega
    · exact (ih hlist.tail (i + 1) region hregion').skip hroom

end Fluke
