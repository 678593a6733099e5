import Fluke.User.Vm.Operations
import Fluke.X86.Mmu.Budget

/-!
# `VM::alloc_movable`

`alloc_movable` takes the last roomy gap below the hint or the first one above it, whichever is
nearer, and moves the hint into the gap. It makes sure that the gap has room for the length, but
not that it has room from the moved hint on: `HintFits` says when it has.
-/

namespace Fluke

open Outcome

/-- Arguments of `VM::alloc_movable`: the hint is page-aligned, as the length is. -/
abbrev MovableArgs (hint len : ℕ) : Prop := VmArgs hint len

lemma effectiveHint_spec {hint : ℕ} (h : 4096 ∣ hint) :
    4096 ∣ effectiveHint hint ∧ addrMin ≤ effectiveHint hint ∧ effectiveHint hint < addrMax := by
  unfold effectiveHint
  split_ifs with hcond
  · decide
  · simp only [Bool.or_eq_true, decide_eq_true_eq, not_or, not_lt, not_le] at hcond
    exact ⟨h, hcond.1, by omega⟩

/-- When `alloc_movable` finds room from the hint on. -/
def MovableFits (areas : List VmArea) (hint len : ℕ) : Prop :=
  effectiveHint hint + len > addrMax ∨ HintFits areas (effectiveHint hint) len

lemma protToMode_ne_neg_one (flags : BitVec 32) : protToMode flags ≠ -1 := by
  unfold protToMode
  split_ifs <;> decide

section

variable {areas pre post : List VmArea} {area r : VmArea} {hint len lo hi lo' hi' : ℕ}

lemma gapIn_append (pre post : List VmArea) (r : VmArea) :
    GapIn (pre ++ r :: post) r.end_ (nextBegin post) := by
  induction pre with
  | nil => exact Or.inl ⟨rfl, rfl⟩
  | cons a pre ih => exact Or.inr ih

/-- The areas end at different addresses. -/
lemma gapIn_end {list : List VmArea} (hgap : GapIn list lo hi) : ∃ a ∈ list, a.end_ = lo := by
  induction list with
  | nil => exact hgap.elim
  | cons a next ih =>
    rcases hgap with ⟨rfl, -⟩ | hgap
    · exact ⟨a, List.mem_cons_self, rfl⟩
    · obtain ⟨b, hb, hend⟩ := ih hgap
      exact ⟨b, List.mem_cons_of_mem _ hb, hend⟩

lemma gapIn_unique {list : List VmArea} (hsorted : list.Pairwise fun a b => a.end_ < b.end_)
    (h : GapIn list lo hi) (h' : GapIn list lo hi') : hi = hi' := by
  induction list with
  | nil => exact h.elim
  | cons a next ih =>
    obtain ⟨hafter, hnext⟩ := List.pairwise_cons.mp hsorted
    rcases h with ⟨rfl, rfl⟩ | h
    · rcases h' with ⟨-, rfl⟩ | h'
      · rfl
      · obtain ⟨b, hb, hend⟩ := gapIn_end h'
        have hlt := hafter b hb
        omega
    · rcases h' with ⟨rfl, rfl⟩ | h'
      · obtain ⟨b, hb, hend⟩ := gapIn_end h
        have hlt := hafter b hb
        omega
      · exact ih hnext h h'

lemma WellFormed.ends_lt (h : WellFormed areas) :
    (vmListBegin :: areas).Pairwise fun a b => a.end_ < b.end_ := by
  refine List.pairwise_cons.mpr ⟨fun a ha => ?_, ?_⟩
  · exact ((h.ok a ha).lower).trans_lt (h.ok a ha).lt
  · exact h.sorted.imp_of_mem fun ha hb hab => hab.trans_lt (h.ok _ hb).lt

/-- The gap that the loop of `alloc_movable` takes has room from the hint on just when the hint
fits. -/
lemma Found.fits_iff (hwf : WellFormed areas) {r : VmArea} {j : ℕ}
    (h : Found hint len (vmListBegin :: areas) 0 none (some (r, j))) (hlen : 0 < len) :
    ∃ pre post, vmListBegin :: areas = pre ++ r :: post ∧ j = pre.length ∧
      Roomy len r.end_ (nextBegin post) ∧
      (HintFits areas hint len ↔ clamp hint r.end_ (nextBegin post) + len ≤ nextBegin post) := by
  cases h with
  | kept h => cases h
  | @below pre post _ _ hlist hj hroomy hlo hlast =>
    have hgap : IsGap areas r.end_ (nextBegin post) := by
      rw [IsGap, hlist]
      exact gapIn_append pre post r
    refine ⟨pre, post, hlist, by omega, hroomy, fun hfits => ?_, fun hfits => ?_⟩
    · have hhint := hfits r.end_ (nextBegin post) hgap hroomy hlo
        (fun lo' hi' hg hr hlt => ?_) fun lo' hi' hg hr hle => ?_
      · unfold clamp
        split_ifs <;> omega
      · rcases hlast lo' hi' hg hr with hle | ⟨hle, -⟩
        · exact hle
        · omega
      · rcases hlast lo' hi' hg hr with hle' | ⟨-, hle'⟩
        · omega
        · exact hle'
    · intro lo hi hg hr hlt hmax _
      have hle := hmax r.end_ (nextBegin post) hgap hroomy hlo
      have hlo' : lo = r.end_ := by
        rcases hlast lo hi hg hr with h | ⟨h, -⟩ <;> omega
      subst hlo'
      rw [gapIn_unique hwf.ends_lt hg hgap]
      unfold clamp at hfits
      split_ifs at hfits <;> omega
  | @above pre post _ _ hlist hj hroomy hlo hnear hregion =>
    have hgap : IsGap areas r.end_ (nextBegin post) := by
      rw [IsGap, hlist]
      exact gapIn_append pre post r
    refine ⟨pre, post, hlist, by omega, hroomy, fun _ => ?_, fun _ => ?_⟩
    · unfold Roomy at hroomy
      unfold clamp
      split_ifs <;> omega
    · intro lo hi hg hr hlt _ hfar
      have h1 := hnear lo hi hg hr hlt
      have h2 := hfar r.end_ (nextBegin post) hgap hroomy hlo
      omega

/-- When no gap is roomy the hint fits. -/
lemma Found.fits_of_none {hint len : ℕ} (h : Found hint len (vmListBegin :: areas) 0 none none) :
    HintFits areas hint len := by
  cases h with
  | nothing _ hno => exact fun lo hi hg hr => absurd hr (hno lo hi hg)

lemma clamp_bounds (h : lo ≤ hi) (v : ℕ) : lo ≤ clamp v lo hi ∧ clamp v lo hi ≤ hi := by
  unfold clamp
  split_ifs <;> omega

lemma clamp_dvd {n v : ℕ} (hv : n ∣ v) (hlo : n ∣ lo) (hhi : n ∣ hi) : n ∣ clamp v lo hi := by
  unfold clamp
  split_ifs
  · exact hlo
  · exact hhi
  · exact hv

/-- Where the clamped hint does not leave room, it is below what the hint itself needs. -/
lemma clamp_add_le {max v : ℕ} (hroomy : Roomy len lo hi) (hhi : hi ≤ max) (hv : v + len ≤ max) :
    clamp v lo hi + len ≤ max := by
  unfold Roomy at hroomy
  unfold clamp
  split_ifs <;> omega

/-! ### Placing the area -/

lemma mergeRegionsAfter_pmm (area : VmArea) (rest : List VmArea) (heap : Heap) :
    Ensures (fun _ => False) (fun r => r.2.2.pmm = heap.pmm)
      (mergeRegionsAfter area rest heap) := by
  induction rest generalizing area heap with
  | nil => exact rfl
  | cons next rest ih =>
    unfold mergeRegionsAfter
    split_ifs
    · refine (freeArea_spec next.block heap).bind fun heap₁ hpmm => ?_
      exact (ih _ heap₁).imp fun r hr => hr.trans hpmm
    · exact rfl

lemma covers_middle {va : ℕ} {flags : MmuMode} {list list' : List VmArea}
    (h : Covers list va flags ↔ Covers list' va flags) :
    Covers (pre ++ list) va flags ↔ Covers (pre ++ list') va flags := by
  rw [covers_append, covers_append, h]

lemma covers_insert_second {va : ℕ} {flags : MmuMode} :
    (area.begin ≤ va ∧ va < area.end_ ∧ area.flags = flags) ∨ Covers (pre ++ r :: post) va flags ↔
      Covers (pre ++ r :: area :: post) va flags := by
  have hsplit : ∀ list, pre ++ r :: list = (pre ++ [r]) ++ list := by simp
  rw [hsplit (area :: post), hsplit post, covers_insert]

/-- The new area stands behind the region and is merged with it where the flags agree. -/
lemma mergeRegion_spec (hwf : WellFormed areas) (hlist : vmListBegin :: areas = pre ++ r :: post)
    (harea : area.Ok) (hbefore : r.end_ ≤ area.begin) (hbehind : area.end_ ≤ nextBegin post)
    (hflags : area.flags ≠ -1) (heap : Heap) :
    Ensures (fun _ => False) (fun out => WellFormed ((pre ++ out.1 :: out.2.1).drop 1) ∧
      (∀ va flags, Covers ((pre ++ out.1 :: out.2.1).drop 1) va flags ↔
        (area.begin ≤ va ∧ va < area.end_ ∧ area.flags = flags) ∨ Covers areas va flags) ∧
      out.2.2.pmm = heap.pmm) (mergeRegionsAfter r (area :: post) heap) := by
  have hpost : ∀ a ∈ post, area.end_ ≤ a.begin := by
    intro a ha
    cases post with
    | nil => cases ha
    | cons next post =>
      rcases List.mem_cons.mp ha with rfl | ha
      · exact hbehind
      · have hsorted := hwf.areaList.sorted
        rw [hlist] at hsorted
        have hsorted' := (List.pairwise_cons.mp (List.pairwise_append.mp hsorted).2.1).2
        have hproper := hwf.areaList.proper next (by rw [hlist]; simp)
        exact (hbehind.trans hproper.1).trans ((List.pairwise_cons.mp hsorted').1 a ha)
  cases pre with
  | nil =>
    -- the begin of the list is merged with nothing
    cases hlist
    unfold mergeRegionsAfter
    rw [if_neg fun h => hflags h.2.symm]
    exact ⟨wellFormed_cons.mpr ⟨harea, hpost, hwf⟩, fun _ _ => covers_cons, rfl⟩
  | cons head pre =>
    obtain ⟨-, hareas⟩ : vmListBegin = head ∧ areas = pre ++ r :: post := List.cons.inj hlist
    subst hareas
    have hinsert : WellFormed (pre ++ r :: area :: post) := by
      have hsplit : pre ++ r :: post = (pre ++ [r]) ++ post := by simp
      rw [hsplit] at hwf
      have hafter := wellFormed_insert hwf harea (fun a ha => ?_) hpost
      · simpa using hafter
      · rcases List.mem_append.mp ha with ha | ha
        · have hsorted := (List.pairwise_append.mp hwf.sorted).1
          have hpre := (List.pairwise_append.mp hsorted).2.2 a ha r (by simp)
          have hr := (hwf.ok r (by simp)).lt
          omega
        · obtain rfl := List.mem_singleton.mp ha
          exact hbefore
    obtain ⟨hpre, hsorted, hbetween⟩ := List.pairwise_append.mp hinsert.sorted
    have hrOk := hinsert.ok r (by simp)
    refine (mergeRegionsAfter_spec hsorted (fun a ha => hinsert.ok a (by simp at ha ⊢; tauto))
      heap).imp ?_
    rintro ⟨r', rest', heap'⟩ ⟨hbegin, -, -, hok, hsorted', hoks, hcovers, hpmm⟩
    have hok' := hok hrOk
    refine ⟨⟨fun a ha => ?_, List.pairwise_append.mpr ⟨hpre, hsorted', fun a ha b hb => ?_⟩⟩,
      fun va flags => ?_, hpmm⟩
    · rcases List.mem_append.mp ha with ha | ha
      · exact hinsert.ok a (List.mem_append_left _ ha)
      · rcases List.mem_cons.mp ha with rfl | ha
        · exact hok'
        · exact hoks a ha
    · have hle := hbetween a ha r (by simp)
      have hlt := hok'.lt
      dsimp only at hbegin hlt
      rcases List.mem_cons.mp hb with rfl | hb
      · exact hle.trans hbegin.ge
      · have hb' := (List.pairwise_cons.mp hsorted').1 b hb
        dsimp only at hb'
        omega
    · have hcovers' := hcovers va flags hrOk.lt.le
      dsimp only at hcovers'
      rw [List.cons_append, List.drop_one, List.tail_cons, covers_middle hcovers',
        ← covers_insert_second]

end

/-! ### The operation -/

/-- What `alloc_movable` leaves. -/
structure Moved (vm : Vm) (hint len : ℕ) (flags : BitVec 32) (heap : Heap) (out : VmOut ℕ) :
    Prop where
  failed : ∀ e, out.1 = .error e → out.2.1 = vm.first ∧
    PagesStep vm.pageMap Kept heap.pmm out.2.2.pmm
  pages : ∀ a, out.1 = .ok a →
    PagesStep vm.pageMap (MapsIn a (a + len) flags) heap.pmm out.2.2.pmm
  fits : MovableFits vm.first hint len → ∀ a, out.1 = .ok a →
    addrMin ≤ a ∧ a + len ≤ addrMax ∧ Disjoint' vm.first a (a + len) ∧ WellFormed out.2.1 ∧
      ∀ va flags', Covers out.2.1 va flags' ↔
        (a ≤ va ∧ va < a + len ∧ protToMode flags = flags') ∨ Covers vm.first va flags'
  overlaps : ¬ MovableFits vm.first hint len → ∀ a, out.1 = .ok a →
    ¬ Disjoint' vm.first a (a + len)
  noSpace : ¬ MovableFits vm.first hint len → ∀ e, out.1 = .error e →
    ∃ heap', makeArea heap = .ok (none, heap')

lemma Moved.error {vm : Vm} {hint len : ℕ} {flags : BitVec 32} {heap heap' : Heap} {e : ErrorCode}
    (h : PagesStep vm.pageMap Kept heap.pmm heap'.pmm)
    (he : MovableFits vm.first hint len ∨ ∃ heap', makeArea heap = .ok (none, heap')) :
    Moved vm hint len flags heap (.error e, vm.first, heap') :=
  ⟨fun _ _ => ⟨rfl, h⟩, fun _ h => (by cases h), fun _ _ h => (by cases h),
    fun _ _ h => (by cases h), fun hfits _ _ => he.resolve_left hfits⟩

/-- There is a free frame for the block of an area, and four for every page. -/
def Enough (heap : Heap) (len : ℕ) : Prop := 1 + 4 * (len / 4096) ≤ heap.pmm.freeList.length

/-- Why `alloc_movable` stops. -/
def MovableStop (vm : Vm) (hint len : ℕ) (heap : Heap) (e : Panic) : Prop :=
  AssignStop (¬ MovableFits vm.first hint len ∨ StrayPage vm heap) e ∧
    (Enough heap len → e ≠ .outOfMemory)

lemma assignArea_budget {pm : Frame} {address len : ℕ} {flags : BitVec 32} {heap : Heap}
    (hr : UserRange address len) (hfree : 4 * (len / 4096) ≤ heap.pmm.freeList.length) :
    assignArea pm address len flags heap ≠ .error .outOfMemory := by
  intro h
  unfold assignArea at h
  split_ifs at h
  have hne := @mmuAssign_budget pm address len (protToMode flags) MmuCache.default heap.pmm hr hfree
  cases hassign : mmuAssign pm address len (protToMode flags) MmuCache.default heap.pmm with
  | ok s' =>
    rw [hassign] at h
    cases h
  | error e =>
    rw [hassign] at h hne
    cases h
    exact hne rfl

/-- The ends of a gap are page-aligned. -/
lemma region_aligned {areas pre post : List VmArea} {r : VmArea} (hwf : WellFormed areas)
    (hlist : vmListBegin :: areas = pre ++ r :: post) :
    4096 ∣ r.end_ ∧ 4096 ∣ nextBegin post ∧ addrMin ≤ r.end_ := by
  have hmem : ∀ a ∈ vmListBegin :: areas, 4096 ∣ a.end_ ∧ 4096 ∣ a.begin ∧ addrMin ≤ a.end_ := by
    intro a ha
    rcases List.mem_cons.mp ha with rfl | ha
    · decide
    · have hok := hwf.ok a ha
      exact ⟨hok.end_aligned, hok.begin_aligned, hok.lower.trans hok.lt.le⟩
  rw [hlist] at hmem
  obtain ⟨hr, -, hlower⟩ := hmem r (by simp)
  refine ⟨hr, ?_, hlower⟩
  cases post with
  | nil => exact Nat.dvd_of_mod_eq_zero (by decide)
  | cons next post => exact (hmem next (by simp)).2.1

/-- A range that begins in a gap meets an area just when it ends behind the gap. -/
lemma disjoint_iff_gap {areas pre post : List VmArea} {r : VmArea} {a len : ℕ}
    (hwf : WellFormed areas) (hlist : vmListBegin :: areas = pre ++ r :: post)
    (hlo : r.end_ ≤ a) (hhi : a ≤ nextBegin post) (hle : a + len ≤ addrMax) :
    Disjoint' areas a (a + len) ↔ a + len ≤ nextBegin post := by
  have hlistOk := hwf.areaList
  have hsorted := hlistOk.sorted
  rw [hlist] at hsorted
  obtain ⟨-, hsorted', hbetween⟩ := List.pairwise_append.mp hsorted
  have hr := hlistOk.proper r (by rw [hlist]; simp)
  have hmem : ∀ b ∈ areas, b ∈ pre ∨ b = r ∨ b ∈ post := by
    intro b hb
    have hb' : b ∈ pre ++ r :: post := hlist ▸ List.mem_cons_of_mem _ hb
    simpa using hb'
  cases post with
  | nil =>
    refine ⟨fun _ => hle, fun _ b hb => Or.inl ?_⟩
    rcases hmem b hb with hb | rfl | hb
    · have hb' := hbetween b hb r (by simp)
      omega
    · exact hlo
    · cases hb
  | cons next post =>
    have hnext : next ∈ areas := by
      have hmem' : next ∈ vmListBegin :: areas := by
        rw [hlist]
        simp
      rcases List.mem_cons.mp hmem' with rfl | hmem'
      · -- the begin of the list has no area in front of it
        cases pre with
        | nil =>
          obtain ⟨-, htail⟩ := List.cons.inj hlist
          rw [htail]
          simp
        | cons head pre =>
          obtain ⟨-, htail⟩ := List.cons.inj hlist
          rw [htail]
          simp
      · exact hmem'
    have hnextLt := (hwf.ok next hnext).lt
    refine ⟨fun hdisj => ?_, fun hfits b hb => ?_⟩
    · rcases hdisj next hnext with hbefore | hbehind
      · have hhi' : a ≤ next.begin := hhi
        omega
      · exact hbehind
    · rcases hmem b hb with hb | rfl | hb
      · have hb' := hbetween b hb r (by simp)
        omega
      · exact Or.inl hlo
      · refine Or.inr (hfits.trans ?_)
        rcases List.mem_cons.mp hb with rfl | hb
        · exact le_rfl
        · have hb' := (List.pairwise_cons.mp (List.pairwise_cons.mp hsorted').2).1 b hb
          exact hnextLt.le.trans hb'

/-- The end of `alloc_movable`, once the region and the address are known. -/
lemma Vm.insertMovable_spec {vm : Vm} {pre post : List VmArea} {r : VmArea} {hint len a : ℕ}
    {flags : BitVec 32} {heap heap₁ : Heap} (ha : clamp hint r.end_ (nextBegin post) = a)
    (hargs : VmArgs a len) (hwf : WellFormed vm.first)
    (hlist : vmListBegin :: vm.first = pre ++ r :: post) (hlo : r.end_ ≤ a)
    (hhi : a ≤ nextBegin post) (hle : a + len ≤ addrMax) (hlower : addrMin ≤ a)
    (hkept : PagesStep vm.pageMap Kept heap.pmm heap₁.pmm) (newArea : Block) :
    Ensures (fun e => AssignStop (¬ a + len ≤ nextBegin post ∨ StrayPage vm heap) e ∧
        (4 * (len / 4096) ≤ heap₁.pmm.freeList.length → e ≠ .outOfMemory))
      (fun out => out.1 = .ok a ∧
        PagesStep vm.pageMap (MapsIn a (a + len) flags) heap.pmm out.2.2.pmm ∧
        (a + len ≤ nextBegin post → WellFormed out.2.1 ∧ ∀ va flags', Covers out.2.1 va flags' ↔
          (a ≤ va ∧ va < a + len ∧ protToMode flags = flags') ∨ Covers vm.first va flags'))
      (vm.insertMovable hint len flags newArea pre r post heap₁) := by
  have hpos := hargs.pos
  have hiff := disjoint_iff_gap hwf hlist hlo hhi hle
  unfold Vm.insertMovable
  extract_lets address area
  have haddress : address = a := ha
  have harea : area = ⟨a, a + len, protToMode flags, newArea⟩ := by
    rw [← hargs.uaddIsize_eq (by omega), ← haddress]
  rw [harea, haddress, hargs.assertValid_eq, ok_bind]
  refine Ensures.bind ((assignArea_spec (hargs.userRange hle) hkept.ok).with_eq.mono ?_
    fun _ h => h.1) fun heap₂ hpages => ?_
  · rintro e ⟨hstop, heq⟩
    refine ⟨hstop.imp_right fun h => ⟨h.1, ?_⟩, fun hfree he => ?_⟩
    rotate_left
    · rw [he] at heq
      exact assignArea_budget (hargs.userRange hle) hfree heq
    by_cases hfits : a + len ≤ nextBegin post
    · exact Or.inr (strayPage_of_rangeMapped hle (hiff.mpr hfits) hkept h.2)
    · exact Or.inl hfits
  have hpages' := hkept.kept_trans hpages
  by_cases hfits : a + len ≤ nextBegin post
  · have hok : (⟨a, a + len, protToMode flags, newArea⟩ : VmArea).Ok :=
      ⟨Nat.lt_add_of_pos_right hpos, hargs.aligned,
        (Nat.dvd_add_right hargs.aligned).mpr hargs.len_aligned, hlower, hle⟩
    refine Ensures.bind ((mergeRegion_spec hwf hlist hok hlo hfits (protToMode_ne_neg_one flags)
      heap₂).mono (fun _ h => h.elim) fun _ h => h) ?_
    rintro ⟨r', rest', heap₃⟩ ⟨hwf', hcovers, hpmm⟩
    refine ⟨rfl, ?_, fun _ => ⟨hwf', hcovers⟩⟩
    dsimp only at hpmm ⊢
    rw [hpmm]
    exact hpages'
  · refine Ensures.bind ((mergeRegionsAfter_pmm r _ heap₂).mono (fun _ h => h.elim)
      fun _ h => h) ?_
    rintro ⟨r', rest', heap₃⟩ hpmm
    refine ⟨rfl, ?_, fun h => absurd h hfits⟩
    dsimp only at hpmm ⊢
    rw [hpmm]
    exact hpages'

/-- The search of `alloc_movable` and the area that is placed by it. -/
lemma Vm.placeMovable_spec {vm : Vm} {hint' hint len : ℕ} {flags : BitVec 32}
    {list : List VmArea} {heap heap₁ : Heap} (hlistEq : list = vmListBegin :: vm.first)
    (heq : hint' = effectiveHint hint) (hhint : 4096 ∣ hint') (hupper : hint' < addrMax)
    (hle : hint' + len ≤ addrMax) (hargs : MovableArgs hint len) (hwf : WellFormed vm.first)
    (hkept : PagesStep vm.pageMap Kept heap.pmm heap₁.pmm)
    (hlength : heap.pmm.freeList.length ≤ heap₁.pmm.freeList.length + 1) (newArea : Block) :
    Ensures (MovableStop vm hint len heap) (Moved vm hint len flags heap)
      (vm.placeMovable hint' len flags newArea list heap₁) := by
  have hfitsIff : MovableFits vm.first hint len ↔ HintFits vm.first hint' len := by
    rw [MovableFits, ← heq]
    exact or_iff_right (not_lt.mpr hle)
  have hlistOk : AreaList list := by
    rw [hlistEq]
    exact hwf.areaList
  have hfound : Found hint' len list 0 none (findRegion hint' len list 0 none) :=
    findRegion_spec hupper hlistOk 0 none fun _ _ h => (by cases h)
  unfold Vm.placeMovable
  generalize findRegion hint' len list 0 none = found at hfound ⊢
  have hfound' : Found hint' len (vmListBegin :: vm.first) 0 none found := hlistEq ▸ hfound
  obtain _ | ⟨r, i⟩ := found
  · refine Ensures.bind ((freeArea_spec newArea heap₁).mono (fun _ h => h.elim) fun _ h => h)
      fun heap₂ hpmm => ?_
    refine Moved.error ?_ (Or.inl (hfitsIff.mpr hfound'.fits_of_none))
    rw [hpmm]
    exact hkept
  obtain ⟨pre, post, hlist, rfl, hroomy, hfits⟩ := hfound'.fits_iff hwf hargs.pos
  have hdrop : list.drop (pre.length + 1) = post := by
    rw [hlistEq, hlist]
    simp
  have htake : list.take pre.length = pre := by
    rw [hlistEq, hlist]
    simp
  -- the bounds of the gap
  rw [hlistEq, hlist] at hlistOk
  have hregion : AreaList (r :: post) :=
    ⟨fun a ha => hlistOk.proper a (List.mem_append_right _ ha),
      (List.pairwise_append.mp hlistOk.sorted).2.1⟩
  obtain ⟨hgapLe, hgapMax⟩ := hregion.nextBegin_bounds
  obtain ⟨hlo, hhi⟩ := clamp_bounds hgapLe hint'
  obtain ⟨hrAligned, hpostAligned, hrLower⟩ := region_aligned hwf hlist
  have hle' := clamp_add_le hroomy hgapMax hle
  have haligned := clamp_dvd hhint hrAligned hpostAligned
  rw [← hfitsIff] at hfits
  dsimp only
  rw [hdrop, htake]
  generalize ha : clamp hint' r.end_ (nextBegin post) = a at *
  have hargs' : VmArgs a len := ⟨haligned, hargs.len_aligned, hargs.pos, hargs.lt⟩
  have hiff := disjoint_iff_gap hwf hlist hlo hhi hle'
  refine (Vm.insertMovable_spec ha hargs' hwf hlist hlo hhi hle' (hrLower.trans hlo) hkept
    newArea).mono ?_ ?_
  · rw [← hfits]
    rintro e ⟨hstop, hfree⟩
    refine ⟨hstop, fun henough => hfree ?_⟩
    unfold Enough at henough
    omega
  · rintro ⟨res, areas, heap₂⟩ ⟨rfl, hpages, hplaced⟩
    refine ⟨fun _ h => (by cases h), fun b hb => ?_, fun hmf b hb => ?_, fun hmf b hb => ?_,
      fun _ _ h => (by cases h)⟩
    · cases hb
      exact hpages
    · cases hb
      have hmf' := hfits.mp hmf
      exact ⟨hrLower.trans hlo, hle', hiff.mpr hmf', hplaced hmf'⟩
    · cases hb
      exact fun hdisj => hmf (hfits.mpr (hiff.mp hdisj))

lemma Vm.allocMovable_spec {vm : Vm} {hint len : ℕ} {flags : BitVec 32} {heap : Heap}
    (hargs : MovableArgs hint len) (hwf : WellFormed vm.first) (hs : SpaceOk vm.pageMap heap.pmm) :
    Ensures (MovableStop vm hint len heap) (Moved vm hint len flags heap)
      (vm.allocMovable hint len flags heap) := by
  obtain ⟨hhint, -, hupper⟩ := effectiveHint_spec hargs.aligned
  unfold Vm.allocMovable
  generalize hlist : vmListBegin :: vm.first = list
  extract_lets hint'
  have heq : hint' = effectiveHint hint := rfl
  rw [← heq] at hhint hupper
  clear_value hint'
  have hargs' : VmArgs hint' len := ⟨hhint, hargs.len_aligned, hargs.pos, hargs.lt⟩
  rw [hargs'.uaddIsize_eq hupper]
  split_ifs with hrange
  · exact Moved.error (.kept hs) (Or.inl (Or.inl (heq ▸ hrange)))
  have hmake : Ensures (MovableStop vm hint len heap)
      (fun r => HeapStep heap r.2 ∧ makeArea heap = .ok r) (makeArea heap) :=
    (makeArea_spec hs.counted).with_eq.mono (fun _ h => h.1.elim) fun _ h => h
  refine hmake.bind fun r h => ?_
  obtain ⟨block, heap₁⟩ := r
  have hstep : HeapStep heap heap₁ := h.1
  have hkept := hstep.pagesKept hs
  cases block with
  | none => exact Moved.error hkept (Or.inr ⟨heap₁, h.2⟩)
  | some newArea =>
    exact Vm.placeMovable_spec hlist.symm heq hhint hupper (not_lt.mp hrange) hargs hwf hkept
      hstep.length newArea

end Fluke
