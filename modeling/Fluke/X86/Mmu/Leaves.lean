import Fluke.X86.Mmu.Index

/-!
# The leaf slots of a range

`assign`, `clear` and `edit` go down the tables in the same way but for the end of the part they
hand to the table below. `leafSlots` is this way down on its own, with the entries named by their
indices from the PML4 on. The end that `assign` and `clear` form wraps around to 0 for the last
entry of the last table, and from there on they visit everything up to the end of the address space
and entries behind the last one of a table.
-/

namespace Fluke

open TableRange

/-- The leaf slots below a table that the recursion visits, given the way `next_vend` is formed. An
index is not checked against the size of a table. -/
def leafSlots (next : ℕ → ℕ → ℕ → ℕ → ℕ) : (depth vbegin vend : ℕ) → List (List ℕ)
  | 0, _, _ => [[]]
  | depth + 1, vbegin, vend =>
    let ibegin := indexBegin (depth + 1) vbegin
    let iend := indexEnd (depth + 1) vbegin vend
    (List.range' ibegin (iend - ibegin)).flatMap fun i =>
      (leafSlots next depth (nextVbegin (depth + 1) vbegin i)
        (next (depth + 1) vbegin vend i)).map (i :: ·)

/-- The leaf slots `mmu_assign` visits. -/
def assignSlots (address : ℕ) (len : ℤ) : List (List ℕ) :=
  leafSlots nextVend PML4 address (uaddIsize address len)

/-- The leaf slots `mmu_clear` visits, when every entry on the way is present. -/
def clearSlots (address : ℕ) (len : ℤ) : List (List ℕ) :=
  leafSlots nextVend PML4 address (uaddIsize address len)

/-- The leaf slots `mmu_edit` visits. -/
def editSlots (address : ℕ) (len : ℤ) : List (List ℕ) :=
  leafSlots editNextVend PML4 address (uaddIsize address len)

/-- The slots of the pages of a range. -/
def pageSlots (d vbegin vend : ℕ) : Set (List ℕ) :=
  {p | ∃ va, vbegin ≤ va ∧ va < vend ∧ (pathOf d va).map Fin.val = p}

/-- The leaf slots visited are those of the range. -/
def VisitsRange (slots : List (List ℕ)) (address : ℕ) (len : ℤ) : Prop :=
  ∀ p, p ∈ slots ↔ p ∈ pageSlots PML4 address (address + len.toNat)

lemma mem_leafSlots_succ {next : ℕ → ℕ → ℕ → ℕ → ℕ} {d vbegin vend : ℕ} {p : List ℕ} :
    p ∈ leafSlots next (d + 1) vbegin vend ↔ ∃ i q, i :: q = p ∧
      (indexBegin (d + 1) vbegin ≤ i ∧ i < indexEnd (d + 1) vbegin vend) ∧
      q ∈ leafSlots next d (nextVbegin (d + 1) vbegin i) (next (d + 1) vbegin vend i) := by
  simp only [leafSlots, List.mem_flatMap, List.mem_map, List.mem_range'_1]
  constructor
  · rintro ⟨i, hi, q, hq, heq⟩
    exact ⟨i, q, heq, ⟨hi.1, by omega⟩, hq⟩
  · rintro ⟨i, q, heq, ⟨h1, h2⟩, hq⟩
    exact ⟨i, ⟨h1, by omega⟩, q, hq, heq⟩

/-! ### Ends that are right -/

/-- As long as `good` holds of the end of the range, `next` cuts the range down to the share of an
entry. -/
structure CutsDown (next : ℕ → ℕ → ℕ → ℕ → ℕ) (good : ℕ → Prop) : Prop where
  eq : ∀ {d base vbegin vend : ℕ} {i : Fin 512}, Span d base vbegin vend → good vend →
    base + i * pointeeSize d < vend →
    next d vbegin vend i = min (base + (i + 1) * pointeeSize d) vend
  min : ∀ {vend : ℕ} (x : ℕ), good vend → good (min x vend)

lemma cutsDown_edit : CutsDown editNextVend fun _ => True :=
  ⟨fun h _ _ => h.editNextVend_eq _, fun _ _ => trivial⟩

/-- Ends of shares are multiples of their size, so one that begins before the last `2 ^ 39` bytes
ends there at the latest. -/
lemma Span.share_le {d base vbegin vend i : ℕ} (h : Span d base vbegin vend)
    (hlt : base + i * pointeeSize d < 2 ^ 64 - 2 ^ 39) :
    base + (i + 1) * pointeeSize d ≤ 2 ^ 64 - 2 ^ 39 := by
  have hdepth : pointeeSize d ∣ 2 ^ 64 - 2 ^ 39 := by
    have hd := h.depth
    have hpml4 : PML4 = 4 := rfl
    have hsize : pointeeSize d ∣ 2 ^ 39 := pow_dvd_pow 2 (by unfold virtShift; omega)
    exact Nat.dvd_sub (pointeeSize_dvd (h.depth.trans (Nat.le_succ _))) hsize
  obtain ⟨k, hk⟩ := h.base_dvd'
  obtain ⟨m, hm⟩ := hdepth
  have hshare (j : ℕ) : base + j * pointeeSize d = pointeeSize d * (k + j) := by
    rw [hk]
    ring
  rw [hshare, hm] at hlt ⊢
  have hlt' : k + i < m := Nat.lt_of_mul_lt_mul_left hlt
  exact Nat.mul_le_mul_left _ hlt'

lemma cutsDown_assign : CutsDown nextVend fun vend => vend ≤ 2 ^ 64 - 2 ^ 39 := by
  constructor
  · intro d base vbegin vend i h hgood hlt
    have hle := h.share_le (lt_of_lt_of_le hlt hgood)
    exact h.nextVend_eq i (by omega)
  · intro vend x hgood
    exact (min_le_right _ _).trans hgood

/-- With the right ends the recursion visits the slots of the pages of its range. -/
lemma CutsDown.mem_leafSlots {next : ℕ → ℕ → ℕ → ℕ → ℕ} {good : ℕ → Prop}
    (hnext : CutsDown next good) {d base vbegin vend : ℕ} (h : Span d base vbegin vend)
    (hgood : good vend) (p : List ℕ) :
    p ∈ leafSlots next d vbegin vend ↔ p ∈ pageSlots d vbegin vend := by
  induction d generalizing base vbegin vend p with
  | zero =>
    constructor
    · intro hp
      exact ⟨vbegin, le_rfl, h.lt, (List.mem_singleton.mp hp).symm⟩
    · rintro ⟨va, -, -, rfl⟩
      exact List.mem_cons_self
  | succ d ih =>
    rw [mem_leafSlots_succ]
    constructor
    · rintro ⟨i, q, rfl, hi, hq⟩
      obtain ⟨j, rfl⟩ : ∃ j : Fin 512, j.val = i := ⟨⟨i, hi.2.trans_le h.indexEnd_le⟩, rfl⟩
      have hshare := (h.mem_indices j).mp hi
      have hchild := h.child (h.mem_indices_iff.mpr hshare)
      rw [h.nextVbegin_eq, hnext.eq h hgood hshare.2, ih hchild (hnext.min _ hgood)] at hq
      obtain ⟨va, h1, h2, rfl⟩ := hq
      obtain ⟨h3, h4, rfl⟩ := (h.mem_child_iff j).mpr ⟨h1, h2⟩
      exact ⟨va, h3, h4, rfl⟩
    · rintro ⟨va, h1, h2, rfl⟩
      have hva := (h.mem_child_iff _).mp ⟨h1, h2, rfl⟩
      have hmem := h.tableIndex_mem_indices h1 h2
      have hshare := h.mem_indices_iff.mp hmem
      refine ⟨(tableIndex (d + 1) va).val, (pathOf d va).map Fin.val, rfl,
        (h.mem_indices _).mpr hshare, ?_⟩
      rw [h.nextVbegin_eq, hnext.eq h hgood hshare.2, ih (h.child hmem) (hnext.min _ hgood)]
      exact ⟨va, hva.1, hva.2, rfl⟩

/-! ### The last entry of the last table -/

/-- The first entry of the loop, whatever the end of the range is. -/
lemma indexBegin_lt (d : ℕ) {vbegin : ℕ} (h : vbegin < 2 ^ 64) : indexBegin d vbegin < 512 := by
  have hp := pointeeSize_pos d
  have hdown : pointeeSize d * (vbegin / pointeeSize d) ≤ vbegin := Nat.mul_div_le _ _
  have hbase : 512 * pointeeSize d * (vbegin / (512 * pointeeSize d)) =
      pointeeSize d * (512 * (vbegin / pointeeSize d / 512)) := by
    rw [Nat.div_div_eq_div_mul, mul_comm (pointeeSize d) 512]
    ring
  have hle : 512 * (vbegin / pointeeSize d / 512) ≤ vbegin / pointeeSize d := Nat.mul_div_le _ _
  unfold indexBegin tableBase
  rw [roundDownP2_eq, roundDownP2_eq, hbase, usub_of_le (Nat.mul_le_mul_left _ hle) (by omega),
    ← Nat.mul_sub, Nat.shiftRight_eq_div_pow, ← pointeeSize, Nat.mul_div_cancel_left _ hp]
  omega

/-- A table that ends with the address space: its base, from an address it translates. -/
lemma tableBase_last {d vbegin : ℕ} (hd : d ≤ PML4) (h1 : 2 ^ 64 - pointeeSize (d + 1) ≤ vbegin)
    (h2 : vbegin < 2 ^ 64) : tableBase d vbegin = 2 ^ 64 - pointeeSize (d + 1) := by
  have hdvd : pointeeSize (d + 1) ∣ 2 ^ 64 := pointeeSize_dvd (Nat.succ_le_succ hd)
  have hle : pointeeSize (d + 1) ≤ 2 ^ 64 := Nat.le_of_dvd (by positivity) hdvd
  unfold tableBase
  rw [← pointeeSize_succ]
  exact roundDownP2_of_dvd_add (Nat.dvd_sub hdvd (dvd_refl _)) h1 (by omega)

/-- The address a loop over such a table hands down for its last entry. -/
lemma nextVbegin_last {d vbegin : ℕ} (hd : d ≤ PML4) (h1 : 2 ^ 64 - pointeeSize (d + 1) ≤ vbegin)
    (h2 : vbegin < 2 ^ 64) : nextVbegin d vbegin 511 = max (2 ^ 64 - pointeeSize d) vbegin := by
  have hp := pointeeSize_pos d
  have hsize := pointeeSize_succ d
  have hle : pointeeSize (d + 1) ≤ 2 ^ 64 :=
    Nat.le_of_dvd (by positivity) (pointeeSize_dvd (Nat.succ_le_succ hd))
  have hsum : 511 * pointeeSize d + (2 ^ 64 - pointeeSize (d + 1)) = 2 ^ 64 - pointeeSize d := by
    omega
  unfold nextVbegin
  rw [tableBase_last hd h1 h2, Nat.shiftLeft_eq, ← pointeeSize, uadd_of_lt (by omega), hsum]

/-- With an end of 0 the loop goes on to the last entry. -/
lemma indexEnd_last {d vbegin : ℕ} (hd : d ≤ PDPT) (h1 : 2 ^ 64 - pointeeSize (d + 1) ≤ vbegin)
    (h2 : vbegin < 2 ^ 64) : indexEnd d vbegin 0 = 512 := by
  have hpdpt : PDPT = 3 := rfl
  have hpml4 : PML4 = 4 := rfl
  have hp := pointeeSize_pos d
  have hsize := pointeeSize_succ d
  have hlt : pointeeSize (d + 1) < 2 ^ 64 :=
    Nat.pow_lt_pow_right (by decide) (by unfold virtShift; omega)
  have hround : roundUpP2 0 (pointeeSize d) = 0 := by
    rw [roundUpP2_of_lt hp (by omega), roundDownP2_eq, Nat.div_eq_of_lt (by omega), mul_zero]
  have hsub : usub 0 (2 ^ 64 - pointeeSize (d + 1)) = 512 * pointeeSize d := by
    unfold usub
    omega
  unfold indexEnd
  rw [tableBase_last (by omega) h1 h2, hround, hsub, Nat.shiftRight_eq_div_pow, ← pointeeSize,
    Nat.mul_div_cancel _ hp]

/-- From there on the recursion reaches the last page of the address space. -/
lemma last_mem_leafSlots {d vbegin : ℕ} (hd : d ≤ PDPT)
    (h1 : 2 ^ 64 - pointeeSize (d + 1) ≤ vbegin) (h2 : vbegin < 2 ^ 64) :
    List.replicate d 511 ∈ leafSlots nextVend d vbegin 0 := by
  induction d generalizing vbegin with
  | zero => exact List.mem_cons_self
  | succ d ih =>
    have hle : d + 1 ≤ PML4 := hd.trans (by decide)
    have hp := pointeeSize_pos (d + 1)
    have hend : nextVend (d + 1) vbegin 0 511 = 0 := Nat.min_zero _
    have hbegin := indexBegin_lt (d + 1) h2
    rw [List.replicate_succ, mem_leafSlots_succ]
    refine ⟨511, _, rfl, ⟨Nat.le_of_lt_succ hbegin, ?_⟩, ?_⟩
    · rw [indexEnd_last hd h1 h2]
      norm_num
    · rw [nextVbegin_last hle h1 h2, hend]
      refine ih ((Nat.le_succ d).trans hd) (le_max_left _ _) ?_
      rw [max_lt_iff]
      exact ⟨Nat.sub_lt (by positivity) hp, h2⟩

/-- A range with a page in the last `2 ^ 39` bytes makes `assign` and `clear` go on to the last page
of the address space. -/
lemma Span.last_mem_leafSlots {vbegin vend : ℕ} (h : Span PML4 0xffff000000000000 vbegin vend)
    (hend : 2 ^ 64 - 2 ^ 39 < vend) :
    [511, 511, 511, 511] ∈ leafSlots nextVend PML4 vbegin vend := by
  have hsize : pointeeSize PML4 = 2 ^ 39 := by decide
  have hbase := h.tableBase_eq
  have hlower := h.lower
  have hlt := h.lt.trans h.vend_lt
  have hwrap : nextVend PML4 vbegin vend 511 = 0 := by
    unfold nextVend
    rw [hbase]
    exact Nat.zero_min _
  have hshare : vbegin < 0xffff000000000000 + (511 + 1) * pointeeSize PML4 ∧
      0xffff000000000000 + 511 * pointeeSize PML4 < vend := by
    rw [hsize]
    omega
  refine mem_leafSlots_succ.mpr ⟨511, [511, 511, 511], rfl, (h.mem_indices 511).mpr hshare, ?_⟩
  rw [h.nextVbegin_eq ⟨511, by decide⟩, hwrap]
  refine Fluke.last_mem_leafSlots (d := PDPT) le_rfl ?_ ?_
  · rw [show PDPT + 1 = PML4 from rfl, hsize]
    exact le_max_of_le_left (by norm_num)
  · rw [max_lt_iff, hsize]
    exact ⟨by norm_num, hlt⟩

/-- The last page of the address space belongs to no range that `validate_limits` accepts. -/
lemma Span.last_notMem_pageSlots {vbegin vend : ℕ}
    (h : Span PML4 0xffff000000000000 vbegin vend) :
    [511, 511, 511, 511] ∉ pageSlots PML4 vbegin vend := by
  rintro ⟨va, h1, h2, h3⟩
  have hsize : pointeeSize (PML4 + 1) = 2 ^ 48 := by decide
  have hlast : (pathOf PML4 (2 ^ 64 - 4096)).map Fin.val = [511, 511, 511, 511] := by decide
  have hpath : pathOf PML4 va = pathOf PML4 (2 ^ 64 - 4096) :=
    List.map_injective_iff.mpr Fin.val_injective (h3.trans hlast.symm)
  have hlower := h.lower
  have hupper := h.vend_lt
  have haligned := h.vend_aligned
  have hpage := page_eq_of_pathOf_eq h.base_dvd (by omega) (by rw [hsize]; omega) (by norm_num)
    (by rw [hsize]; norm_num) hpath
  omega

/-! ### The three functions -/

/-- `edit` visits the slots of the pages of its range. `assign` and `clear` do so when the range
ends before the last `2 ^ 39` bytes of the address space, and otherwise they do not. -/
theorem visitsRange_iff {address : ℕ} {len : ℤ} (haddress : address < 2 ^ 64)
    (hlen : len < 2 ^ 63) (hvalid : validateLimits address len = .ok ()) :
    (VisitsRange (assignSlots address len) address len ∧
      VisitsRange (clearSlots address len) address len ∧
      VisitsRange (editSlots address len) address len) ↔
      address + len.toNat ≤ 0xffffff8000000000 := by
  obtain ⟨base, hbase, hend, hspan⟩ := exists_span_of_validateLimits haddress hlen hvalid
  have hedit : VisitsRange (editSlots address len) address len := by
    intro p
    rw [editSlots, cutsDown_edit.mem_leafSlots hspan trivial, hend]
  have hclear : clearSlots address len = assignSlots address len := rfl
  rw [hclear, ← hend]
  constructor
  · rintro ⟨hassign, -, -⟩
    by_contra hlast
    rcases hbase with ⟨rfl, -⟩ | ⟨rfl, -⟩
    · have hupper := hspan.upper
      have hsize : pointeeSize (PML4 + 1) = 2 ^ 48 := by decide
      omega
    · have hmem := (hassign _).mp (hspan.last_mem_leafSlots (not_le.mp hlast))
      rw [← hend] at hmem
      exact hspan.last_notMem_pageSlots hmem
  · intro hle
    have hassign : VisitsRange (assignSlots address len) address len := by
      intro p
      rw [assignSlots, cutsDown_assign.mem_leafSlots hspan hle, hend]
    exact ⟨hassign, hassign, hedit⟩

/-- The page at `0xffffffff80000000`, where the kernel is linked, is past this bound. -/
theorem visitsRange_iff_kernelText :
    (VisitsRange (assignSlots 0xffffffff80000000 0x1000) 0xffffffff80000000 0x1000 ∧
      VisitsRange (clearSlots 0xffffffff80000000 0x1000) 0xffffffff80000000 0x1000 ∧
      VisitsRange (editSlots 0xffffffff80000000 0x1000) 0xffffffff80000000 0x1000) ↔
      0xffffffff80000000 + (0x1000 : ℤ).toNat ≤ 0xffffff8000000000 :=
  visitsRange_iff (by decide) (by decide) (by decide)

/-- `mmu_assign` on the page before the last one goes on to the last one. -/
theorem not_visitsRange_assign :
    validateLimits 0xffffffffffffe000 0x1000 = .ok () ∧
      ¬ VisitsRange (assignSlots 0xffffffffffffe000 0x1000) 0xffffffffffffe000 0x1000 := by
  have hvalid : validateLimits 0xffffffffffffe000 0x1000 = .ok () := by decide
  obtain ⟨base, hbase, hend, hspan⟩ :=
    exists_span_of_validateLimits (by decide) (by decide) hvalid
  have hvisited : [511, 511, 511, 511] ∈ assignSlots 0xffffffffffffe000 0x1000 := by decide
  refine ⟨hvalid, fun hvisits => ?_⟩
  have hmem := (hvisits _).mp hvisited
  rw [← hend] at hmem
  rcases hbase with ⟨rfl, -⟩ | ⟨rfl, -⟩
  · exact absurd hspan.upper (by decide)
  · exact hspan.last_notMem_pageSlots hmem

end Fluke
